import BuildGraph.Consumer.Plugins
import BuildGraph.Consumer.Project
import BuildGraph.Proofs.References

/-!
# Canonical lists of references

A set keeps its references in the order of their identities. That is also their own order:
the category leads, then the fields that identify a reference, and references that agree on
these are merged. So every answer made of references is strictly increasing, whatever order
its parts came in.
-/

namespace BuildGraph

/-! ## Keys that start alike -/

namespace SortKey

theorem compare_variant (i j : Nat) (xs ys : List SortKey) :
    compare (variant i xs) (variant j ys) =
      (compare i j).then (compare (ofList xs) (ofList ys)) := rfl

theorem compare_append (as bs : List SortKey) : ∀ {xs ys : List SortKey},
    xs.length = ys.length → compare (ofList xs) (ofList ys) = .lt →
      compare (ofList (xs ++ as)) (ofList (ys ++ bs)) = .lt
  | [], [], _, h => nomatch h
  | x :: xs, y :: ys, hlength, h => by
    rw [compare_ofList_cons, Ordering.then_eq_lt] at h
    rw [List.cons_append, List.cons_append, compare_ofList_cons, Ordering.then_eq_lt]
    rcases h with h | ⟨heq, h⟩
    · exact .inl h
    · exact .inr ⟨heq, compare_append as bs (Nat.succ.inj hlength) h⟩

end SortKey

/-! ## References and their identities -/

namespace ReferenceKey

def rank : ReferenceKey → Nat
  | sdk _ => 0
  | product .. => 1
  | library _ => 2
  | framework _ => 3
  | xcframework _ => 4
  | bundle _ => 5

def fields : ReferenceKey → List SortKey
  | product productName project target => [sortKey productName, sortKey project, sortKey target]
  | sdk path | library path | framework path | xcframework path | bundle path => [sortKey path]

theorem sortKey_eq (k : ReferenceKey) : sortKey k = .variant k.rank k.fields := by
  cases k <;> rfl

theorem length_fields {j k : ReferenceKey} (h : j.rank = k.rank) :
    j.fields.length = k.fields.length := by
  cases j <;> cases k <;> first | rfl | cases h

end ReferenceKey

namespace Reference

def details : Reference → List SortKey
  | sdk _ status source c => [sortKey status, sortKey source, sortKey c]
  | product _ _ _ c => [sortKey c]
  | library _ publicHeaders swiftModuleMap linking architectures c =>
    [sortKey publicHeaders, sortKey swiftModuleMap, sortKey linking, sortKey architectures,
      sortKey c]
  | framework _ binaryPath dsymPath bcsymbolmapPaths linking architectures isThirdParty status c =>
    [sortKey binaryPath, sortKey dsymPath, sortKey bcsymbolmapPaths, sortKey linking,
      sortKey architectures, .ofBool isThirdParty, sortKey status, sortKey c]
  | xcframework _ info primaryBinaryPath linking status c =>
    [sortKey info, sortKey primaryBinaryPath, sortKey linking, sortKey status, sortKey c]
  | bundle _ c => [sortKey c]

section
variable {r s : Reference}

theorem sortKey_eq (r : Reference) :
    sortKey r = .variant r.id.rank (r.id.fields ++ r.details) := by
  cases r <;> rfl

theorem compare_of_idKey (h : compare r.idKey s.idKey = .lt) :
    compare (sortKey r) (sortKey s) = .lt := by
  rw [idKey, idKey, ReferenceKey.sortKey_eq, ReferenceKey.sortKey_eq, SortKey.compare_variant,
    Ordering.then_eq_lt] at h
  rw [sortKey_eq, sortKey_eq, SortKey.compare_variant, Ordering.then_eq_lt]
  rcases h with hrank | ⟨hrank, hfields⟩
  · exact .inl hrank
  · have hlength := ReferenceKey.length_fields (Nat.compare_eq_eq.1 hrank)
    exact .inr ⟨hrank, SortKey.compare_append _ _ hlength hfields⟩

theorem compare_idKey (hne : r.idKey ≠ s.idKey) (h : compare (sortKey r) (sortKey s) = .lt) :
    compare r.idKey s.idKey = .lt := by
  rcases SortKey.lt_or_eq_or_gt r.idKey s.idKey with hlt | heq | hgt
  · exact hlt
  · exact absurd heq hne
  · have hback := SortKey.lt_trans h (compare_of_idKey hgt)
    exact absurd hback (SortKey.lt_irrefl _)

end

/-! ## Canonical lists -/

/-- Strictly increasing as references and as identities: by category, then by the identifying
fields. No identity comes twice. -/
structure Canonical (out : List Reference) : Prop where
  increasing : IncreasingBy sortKey out
  byIdentity : IncreasingBy idKey out
  distinct : (out.map idKey).Nodup

theorem canonical_of_byIdentity {out : List Reference} (h : IncreasingBy idKey out) :
    Canonical out :=
  ⟨h.imp compare_of_idKey, h, h.nodup⟩

theorem canonical_of_increasing {out : List Reference} (h : IncreasingBy sortKey out)
    (hinj : ∀ r ∈ out, ∀ s ∈ out, r.idKey = s.idKey → sortKey r = sortKey s) : Canonical out := by
  apply canonical_of_byIdentity
  refine List.Pairwise.imp_of_mem (fun {r s} hr hs hlt => compare_idKey ?_ hlt) h
  intro heq
  rw [hinj r hr s hs heq] at hlt
  exact SortKey.lt_irrefl _ hlt

/-- What the references of `rs` that share the identity of `m` are merged into. -/
structure MergedFrom (rs : List Reference) (m : Reference) : Prop where
  exists_part : ∃ r ∈ rs, r.idKey = m.idKey
  unconditional : m.condition = none ↔ ∃ r ∈ rs, r.idKey = m.idKey ∧ r.condition = none
  conditional : ∀ c, m.condition = some c → ∀ p, c.contains p = true ↔
    ∃ d, (∃ r ∈ rs, r.idKey = m.idKey ∧ r.condition = some d) ∧ d.contains p = true
  hasStatus : ∀ r ∈ rs, r.idKey = m.idKey → m.status?.isSome = r.status?.isSome
  required : m.status? = some .required ↔
    ∃ r ∈ rs, r.idKey = m.idKey ∧ r.status? = some .required

end Reference

namespace References

open Reference

theorem canonical (s : References) : Canonical s.toList :=
  canonical_of_byIdentity s.increasing

theorem mergedFrom_of_collects {s : References} {rs : List Reference} (h : s.Collects rs)
    {m : Reference} (hm : m ∈ s.toList) : MergedFrom rs m := by
  have hunion (x : Place) : Condition.appliesAt m.condition x = true ↔
      ∃ d, (∃ r ∈ rs, r.idKey = m.idKey ∧ r.condition = d) ∧ Condition.appliesAt d x = true := by
    rw [h.joint_iff (joint_appliesAt x) hm]
    constructor
    · rintro ⟨r, hr, hkey, happlies⟩
      exact ⟨r.condition, ⟨r, hr, hkey, rfl⟩, happlies⟩
    · rintro ⟨_, ⟨r, hr, hkey, rfl⟩, happlies⟩
      exact ⟨r, hr, hkey, happlies⟩
  have hpart : ∃ r ∈ rs, r.idKey = m.idKey :=
    List.mem_map.1 ((h.isSome m.idKey).1 (findKey_isSome.2 (List.mem_map_of_mem hm)))
  exact ⟨hpart, Condition.eq_none_of_union hunion,
    fun _ hc _ => Condition.contains_of_union hunion hc,
    fun _ _ hr => (status?_isSome_of_idKey hr).symm, h.joint_iff joint_isRequired hm⟩

theorem outline_ofList_perm {rs ps : List Reference} (h : ps.Perm rs) :
    (ofList ps).toList.map outline = (ofList rs).toList.map outline := by
  refine (collects_ofList ps).outline_eq (collects_ofList rs) ⟨fun r hr => ?_, fun r hr => ?_⟩
  · exact ⟨r, h.mem_iff.1 hr, rfl⟩
  · exact ⟨r, h.mem_iff.2 hr, rfl⟩

theorem existsUnique_ofList {rs ps : List Reference} (h : ps.Perm rs) {r : Reference}
    (hr : r ∈ rs) : ∃! m, m ∈ (ofList ps).toList ∧ m.idKey = r.idKey := by
  have hsome := (collects_ofList ps).isSome r.idKey
  rw [get?, findKey_isSome] at hsome
  have hkey := hsome.2 (List.mem_map_of_mem (h.mem_iff.2 hr))
  obtain ⟨m, hm, hmr⟩ := List.mem_map.1 hkey
  refine ⟨m, ⟨hm, hmr⟩, ?_⟩
  rintro n ⟨hn, hnr⟩
  exact List.inj_on_of_nodup_map (ofList ps).increasing.nodup hn hm (hnr.trans hmr.symm)

theorem mergedFrom_perm {rs ps : List Reference} (h : ps.Perm rs) {m : Reference}
    (hm : m ∈ (ofList ps).toList) : MergedFrom rs m := by
  have hmerged := mergedFrom_of_collects (collects_ofList ps) hm
  have hmem {r : Reference} : r ∈ ps ↔ r ∈ rs := h.mem_iff
  obtain ⟨hpart, hnone, hsome, hstatus, hrequired⟩ := hmerged
  simp only [hmem] at hpart hnone hsome hstatus hrequired
  exact ⟨hpart, hnone, hsome, hstatus, hrequired⟩

end References

/-! ## Answers -/

theorem Consumer.canonical_macroReferences (c : Consumer) :
    Reference.Canonical c.macroReferences := by
  have hmacos {r : Reference} (hr : r ∈ c.macroReferences) :
      ∃ t, .ofTarget t (some (.only .macos)) = r := by
    obtain ⟨t, -, ht⟩ := List.mem_map.1 (mem_collectBy_keepLast hr)
    exact ⟨t, ht⟩
  apply Reference.canonical_of_increasing (collectBy_increasing (keepsKey_keepLast sortKey) _)
  intro r hr s hs hkey
  obtain ⟨t, rfl⟩ := hmacos hr
  obtain ⟨u, rfl⟩ := hmacos hs
  -- all are products for one platform, which leaves the identity to tell them apart
  rw [Reference.idKey, Reference.idKey, ReferenceKey.sortKey_eq, ReferenceKey.sortKey_eq,
    SortKey.variant_inj] at hkey
  rw [Reference.sortKey_eq, Reference.sortKey_eq, hkey.1, hkey.2]
  rfl

/-- However references come in, they end up strictly increasing with one for each identity,
merged from all of that identity. So do the answers of all queries for references. -/
theorem Reference.canonical_answers :
    (∀ rs ps : List Reference, ps.Perm rs →
      let out := (References.ofList ps).toList
      Canonical out ∧ (∀ r ∈ rs, ∃! m, m ∈ out ∧ m.idKey = r.idKey) ∧
        (∀ m ∈ out, MergedFrom rs m) ∧
        out.map outline = (References.ofList rs).toList.map outline) ∧
    (∀ c : Consumer, ∀ out ∈ [c.linked.toList, c.searchable.toList, c.embedded.toList,
      c.staticTargets.toList, c.bundles.toList, c.copied.toList, c.macroReferences],
      Canonical out) ∧
    ∀ (g : Graph) (path : Path), Canonical (g.projectReferences path).toList := by
  refine ⟨fun rs ps h => ?_, fun c => ?_, fun g path => (g.projectReferences path).canonical⟩
  · exact ⟨(References.ofList ps).canonical, fun r => References.existsUnique_ofList h,
      fun m => References.mergedFrom_perm h, References.outline_ofList_perm h⟩
  · simp only [List.forall_mem_cons]
    exact ⟨c.linked.canonical, c.searchable.canonical, c.embedded.canonical,
      c.staticTargets.canonical, c.bundles.canonical, c.copied.canonical,
      c.canonical_macroReferences, List.forall_mem_nil _⟩

def strewn : List Reference :=
  [.bundle ⟨"/A.bundle"⟩ none,
    .sdk ⟨"/sdk/Z.framework"⟩ .optional .system (some (.only .ios)),
    .product "A.framework" ⟨"/w"⟩ "A" none,
    .sdk ⟨"/sdk//Z.framework/"⟩ .required .system (some (.only .macos))]

theorem canonical_strewn : strewn.reverse.Perm strewn ∧
    Reference.Canonical (References.ofList strewn.reverse).toList ∧
    (References.ofList strewn.reverse).toList.map (fun r => (r.id, r.condition, r.status?)) =
      [(.sdk ⟨"/sdk//Z.framework/"⟩, Condition.when? [.ios, .macos], some .required),
        (.product "A.framework" ⟨"/w"⟩ "A", none, none), (.bundle ⟨"/A.bundle"⟩, none, none)] := by
  have hperm : strewn.reverse.Perm strewn := List.reverse_perm strewn
  obtain ⟨hcanonical, -⟩ := Reference.canonical_answers.1 strewn strewn.reverse hperm
  exact ⟨hperm, hcanonical, by decide +kernel⟩

end BuildGraph
