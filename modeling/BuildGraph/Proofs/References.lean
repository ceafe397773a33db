import BuildGraph.Proofs.NetCondition
import BuildGraph.Proofs.NodeKey
import BuildGraph.Proofs.Paired
import BuildGraph.Reference

/-!
# References that were merged

A set of references is known by the list of references that went into it. Under each
identity it holds one: with the places of all, required if one of them is, and with all
other fields from the first. So the order of the list shows in those other fields only.
-/

namespace BuildGraph

namespace Reference

def idKey (r : Reference) : SortKey := sortKey r.id

def isRequired (r : Reference) : Prop := r.status? = some .required

/-- What merging does not take from the first reference alone. -/
def outline (r : Reference) : SortKey × Option Condition × Option LinkStatus :=
  (r.idKey, r.condition, r.status?)

/-- The fields that merging takes from the first reference. -/
def kept : Reference → Reference
  | sdk path _ source _ => sdk path .required source none
  | product productName project target _ => product productName project target none
  | library path headers moduleMap linking architectures _ =>
    library path headers moduleMap linking architectures none
  | framework path binary dsym bcsymbolmaps linking architectures isThirdParty _ _ =>
    framework path binary dsym bcsymbolmaps linking architectures isThirdParty .required none
  | xcframework path info binary linking _ _ => xcframework path info binary linking .required none
  | bundle path _ => bundle path none

section
variable {r s : Reference} (h : r.outline = s.outline)
include h

theorem idKey_of_outline : r.idKey = s.idKey := congrArg (·.1) h

theorem condition_of_outline : r.condition = s.condition := congrArg (·.2.1) h

theorem status_of_outline : r.status? = s.status? := congrArg (·.2.2) h

theorem isRequired_of_outline : r.isRequired ↔ s.isRequired := by
  rw [isRequired, isRequired, status_of_outline h]

end

/-! ## One merge -/

theorem idKey_absorb (r s : Reference) : (r.absorb s).idKey = r.idKey :=
  congrArg sortKey (r.id_absorb s)

theorem kept_absorb (r s : Reference) : (r.absorb s).kept = r.kept := by
  cases r <;> rfl

theorem condition_absorb (r s : Reference) :
    (r.absorb s).condition = Condition.either r.condition s.condition := by
  cases r <;> rfl

theorem status?_isSome_of_idKey {r s : Reference} (h : r.idKey = s.idKey) :
    r.status?.isSome = s.status?.isSome := by
  change r.id.order = s.id.order at h
  cases r <;> cases s <;>
    simp_all [id, ReferenceKey.order, status?]

theorem isRequired_absorb {r s : Reference} (h : s.idKey = r.idKey) :
    (r.absorb s).isRequired ↔ r.isRequired ∨ s.isRequired := by
  have hsome := status?_isSome_of_idKey h
  have hs : (r.absorb s).status? = r.status?.map fun status =>
      (s.status?.map status.stronger).getD status := by
    cases r <;> rfl
  rw [isRequired, isRequired, isRequired, hs]
  rcases hr : r.status? with _ | _ | _ <;> rcases hs' : s.status? with _ | _ | _ <;>
    simp_all [LinkStatus.stronger]

/-- What a merged reference has exactly if one of its parts has it. -/
def Joint (attr : Reference → Prop) : Prop :=
  ∀ r s : Reference, s.idKey = r.idKey → (attr (r.absorb s) ↔ attr r ∨ attr s)

theorem joint_isRequired : Joint isRequired := fun _ _ h => isRequired_absorb h

theorem joint_appliesAt (x : Place) : Joint fun r => Condition.appliesAt r.condition x = true := by
  intro r s _
  simp only [condition_absorb, Condition.appliesAt_either]

theorem status?_eq {r s : Reference} (h : r.idKey = s.idKey)
    (hreq : r.isRequired ↔ s.isRequired) : r.status? = s.status? := by
  have hsome := status?_isSome_of_idKey h
  rw [isRequired, isRequired] at hreq
  rcases hr : r.status? with _ | _ | _ <;> rcases hs : s.status? with _ | _ | _ <;> simp_all

theorem sortKey_eq_iff {r s : Reference} (h : r.idKey = s.idKey) : sortKey r = sortKey s ↔
    sortKey r.kept = sortKey s.kept ∧ r.condition = s.condition ∧ (r.isRequired ↔ s.isRequired) := by
  have hc {c d : Option Condition} : sortKey c = sortKey d ↔ c = d :=
    ⟨Condition.eq_of_sortKey, congrArg sortKey⟩
  have hs {a b : LinkStatus} : sortKey a = sortKey b ↔ (a = .required ↔ b = .required) := by
    rw [sortKey_status]
    cases a <;> cases b <;> simp
  change r.id.order = s.id.order at h
  change r.order = s.order ↔ r.kept.order = s.kept.order ∧ _
  cases r <;> cases s <;> simp [id, ReferenceKey.order] at h <;>
    simp [order, kept, condition, isRequired, status?, hc, hs, and_assoc, and_comm, and_left_comm]

end Reference

/-! ## Sets -/

namespace References

open Reference

def get? (s : References) (k : SortKey) : Option Reference :=
  findKey idKey s.toList k

/-- `m` is what the references of `rs` under the key `k` are merged into. -/
structure IsMerged (rs : List Reference) (k : SortKey) (m : Reference) : Prop where
  key : m.idKey = k
  kept : (findKey idKey rs k).map Reference.kept = some m.kept
  joint : ∀ attr, Joint attr → (attr m ↔ ∃ r ∈ rs, r.idKey = k ∧ attr r)

/-- The references of `rs`, and nothing else, went into the set. -/
structure Collects (s : References) (rs : List Reference) : Prop where
  isSome : ∀ k, (s.get? k).isSome = true ↔ k ∈ rs.map idKey
  merged : ∀ k m, s.get? k = some m → IsMerged rs k m

def firstKept (rs : List Reference) (k : SortKey) : Option SortKey :=
  (findKey idKey rs k).map fun r => sortKey r.kept

section
variable {s t : References} {rs ps : List Reference} {r m : Reference} {k : SortKey}

theorem findKey_append (xs ys : List Reference) (k : SortKey) :
    findKey idKey (xs ++ ys) k = (findKey idKey xs k).or (findKey idKey ys k) :=
  List.find?_append

theorem exists_mem_append {xs ys : List Reference} {p : Reference → Prop} :
    (∃ r ∈ xs ++ ys, p r) ↔ (∃ r ∈ xs, p r) ∨ ∃ r ∈ ys, p r := by
  simp only [List.mem_append, or_and_right, exists_or]

/-! ### One more reference -/

theorem isMerged_first (hno : k ∉ rs.map idKey) (hr : r.idKey = k) :
    IsMerged (rs ++ [r]) k r := by
  have hnone : findKey idKey rs k = none := findKey_eq_none.2 hno
  refine ⟨hr, ?_, fun attr _ => ?_⟩
  · rw [findKey_append, hnone, Option.none_or, findKey_cons, if_pos hr]
    rfl
  · have hold : ¬ ∃ p ∈ rs, p.idKey = k ∧ attr p := by
      rintro ⟨p, hp, he, -⟩
      exact hno (he ▸ List.mem_map_of_mem hp)
    rw [exists_mem_append, or_iff_right hold]
    simp [hr]

theorem IsMerged.absorb (h : IsMerged rs k m) (hr : r.idKey = k) :
    IsMerged (rs ++ [r]) k (m.absorb r) := by
  have hsome : (findKey idKey rs k).isSome = true := by
    rw [← Option.isSome_map, h.kept]
    rfl
  refine ⟨(idKey_absorb m r).trans h.key, ?_, fun attr hattr => ?_⟩
  · rw [kept_absorb, findKey_append, Option.or_of_isSome hsome, h.kept]
  · rw [hattr m r (hr.trans h.key.symm), h.joint attr hattr, exists_mem_append]
    simp [hr]

theorem IsMerged.other (h : IsMerged rs k m) (hr : r.idKey ≠ k) : IsMerged (rs ++ [r]) k m := by
  have hsome : (findKey idKey rs k).isSome = true := by
    rw [← Option.isSome_map, h.kept]
    rfl
  refine ⟨h.key, ?_, fun attr hattr => ?_⟩
  · rw [findKey_append, Option.or_of_isSome hsome, h.kept]
  · rw [h.joint attr hattr, exists_mem_append]
    simp [hr]

theorem get?_insert (s : References) (r : Reference) (k : SortKey) : (s.insert r).get? k =
    if r.idKey = k then mergeInto Reference.absorb (s.get? k) r else s.get? k :=
  findKey_insertBy keepsKey_absorb r k s.increasing

theorem Collects.insert (h : s.Collects rs) (r : Reference) :
    (s.insert r).Collects (rs ++ [r]) := by
  constructor
  · intro k
    rw [get?_insert]
    by_cases hr : r.idKey = k
    · simp [hr, mergeInto]
    · simp [hr, h.isSome k, eq_comm (a := k)]
  · intro k m hm
    rw [get?_insert] at hm
    by_cases hr : r.idKey = k
    · rw [if_pos hr] at hm
      cases hfound : s.get? k with
      | none =>
        rw [hfound] at hm
        obtain rfl : r = m := Option.some.inj hm
        apply isMerged_first _ hr
        rw [← h.isSome, hfound]
        simp
      | some old =>
        rw [hfound] at hm
        obtain rfl : old.absorb r = m := Option.some.inj hm
        exact (h.merged k old hfound).absorb hr
    · rw [if_neg hr] at hm
      exact (h.merged k m hm).other hr

/-! ### Whole sets -/

theorem collects_empty : empty.Collects [] :=
  ⟨fun k => by simp [get?, empty, findKey], fun _ _ h => nomatch h⟩

theorem Collects.insertAll (h : s.Collects rs) (ps : List Reference) :
    (s.insertAll ps).Collects (rs ++ ps) := by
  induction ps generalizing s rs with
  | nil => simpa [References.insertAll] using h
  | cons p ps ih =>
    have hp := ih (h.insert p)
    rwa [List.append_assoc] at hp

theorem collects_ofList (rs : List Reference) : (ofList rs).Collects rs :=
  collects_empty.insertAll rs

theorem get?_eq_findKey (s : References) (k : SortKey) : findKey idKey s.toList k = s.get? k := rfl

theorem Collects.kept_eq (h : s.Collects rs) (k : SortKey) :
    (s.get? k).map Reference.kept = (findKey idKey rs k).map Reference.kept := by
  cases hm : s.get? k with
  | none =>
    have hnot : findKey idKey rs k = none := by
      rw [findKey_eq_none, ← h.isSome, hm]
      simp
    rw [hnot]
  | some m => rw [(h.merged k m hm).kept, Option.map_some]

theorem Collects.exists_iff (h : s.Collects rs) {attr : Reference → Prop} (hattr : Joint attr)
    (k : SortKey) : (∃ r ∈ s.toList, r.idKey = k ∧ attr r) ↔ ∃ r ∈ rs, r.idKey = k ∧ attr r := by
  cases hm : s.get? k with
  | none =>
    have hnot : k ∉ s.toList.map idKey := findKey_eq_none.1 hm
    have hnot' : k ∉ rs.map idKey := by
      rw [← h.isSome, hm]
      simp
    apply iff_of_false
    · rintro ⟨r, hr, he, -⟩
      exact hnot (he ▸ List.mem_map_of_mem hr)
    · rintro ⟨r, hr, he, -⟩
      exact hnot' (he ▸ List.mem_map_of_mem hr)
  | some m =>
    rw [← (h.merged k m hm).joint attr hattr]
    constructor
    · rintro ⟨r, hr, he, hr'⟩
      have hget : s.get? k = some r := he ▸ findKey_of_mem s.increasing.nodup hr
      rw [hm] at hget
      exact Option.some.inj hget ▸ hr'
    · intro hm'
      exact ⟨m, mem_of_findKey hm, key_of_findKey hm, hm'⟩

theorem Collects.joint_iff (h : s.Collects rs) {attr : Reference → Prop} (hattr : Joint attr)
    (hr : r ∈ s.toList) : attr r ↔ ∃ p ∈ rs, p.idKey = r.idKey ∧ attr p :=
  (h.merged _ r (findKey_of_mem s.increasing.nodup hr)).joint attr hattr

theorem Collects.insertSet (hs : s.Collects rs) (ht : t.Collects ps) :
    (s.insertAll t.toList).Collects (rs ++ ps) := by
  have hall := hs.insertAll t.toList
  constructor
  · intro k
    have htk : k ∈ t.toList.map idKey ↔ k ∈ ps.map idKey := by
      rw [← findKey_isSome, get?_eq_findKey, ht.isSome]
    rw [hall.isSome, List.map_append, List.map_append, List.mem_append, List.mem_append, htk]
  · intro k m hm
    obtain ⟨hkey, hkept, hjoint⟩ := hall.merged k m hm
    refine ⟨hkey, ?_, fun attr hattr => ?_⟩
    · rw [findKey_append] at hkept ⊢
      cases hfirst : findKey idKey rs k with
      | some r => simpa [hfirst] using hkept
      | none =>
        rw [hfirst, Option.none_or, get?_eq_findKey] at hkept
        rw [Option.none_or, ← ht.kept_eq, hkept]
    · rw [hjoint attr hattr, exists_mem_append, exists_mem_append, ht.exists_iff hattr]

theorem findKey_filter (xs : List Reference) (p : SortKey → Bool) (k : SortKey) :
    findKey idKey (xs.filter fun r => p r.idKey) k = if p k then findKey idKey xs k else none := by
  induction xs with
  | nil => simp [findKey]
  | cons x xs ih =>
    by_cases hx : x.idKey = k
    · by_cases hp : p k = true <;> simp [findKey_cons, hx, hp, ih]
    · by_cases hp : p x.idKey = true <;> simp [findKey_cons, hx, hp, ih]

theorem Collects.filter (h : s.Collects rs) (p : SortKey → Bool) :
    (s.filter fun r => p r.idKey).Collects (rs.filter fun r => p r.idKey) := by
  have hget (k : SortKey) : (s.filter fun r => p r.idKey).get? k = if p k then s.get? k else none :=
    findKey_filter s.toList p k
  constructor
  · intro k
    rw [hget]
    by_cases hp : p k = true
    · rw [if_pos hp, h.isSome, ← findKey_isSome, ← findKey_isSome, findKey_filter, if_pos hp]
    · rw [if_neg hp, ← findKey_isSome, findKey_filter, if_neg hp]
  · intro k m hm
    rw [hget] at hm
    by_cases hp : p k = true
    · rw [if_pos hp] at hm
      obtain ⟨hkey, hkept, hjoint⟩ := h.merged k m hm
      refine ⟨hkey, by rw [findKey_filter, if_pos hp, hkept], fun attr hattr => ?_⟩
      rw [hjoint attr hattr]
      constructor
      · rintro ⟨r, hr, rfl, ha⟩
        exact ⟨r, List.mem_filter.2 ⟨hr, hp⟩, rfl, ha⟩
      · rintro ⟨r, hr, he, ha⟩
        exact ⟨r, List.mem_of_mem_filter hr, he, ha⟩
    · rw [if_neg hp] at hm
      cases hm

theorem contains_iff {id : ReferenceKey} : s.contains id = true ↔ (s.get? (sortKey id)).isSome = true := by
  rw [get?, findKey_isSome]
  simp [contains, same_iff, idKey]

theorem Collects.contains (h : s.Collects rs) {id : ReferenceKey} :
    s.contains id = true ↔ ∃ r ∈ rs, r.idKey = sortKey id := by
  rw [contains_iff, h.isSome, List.mem_map]

/-- What is merged from parts of another set has a counterpart there, with every joint
attribute of its own. -/
theorem Collects.inherited (hs : s.Collects rs) (ht : t.Collects ps) (hr : r ∈ s.toList)
    (hsub : ∀ p ∈ rs, p.idKey = r.idKey → p ∈ ps) : ∃ e ∈ t.toList, e.idKey = r.idKey ∧
      ∀ attr, Joint attr → attr r → attr e := by
  have hget : (s.get? r.idKey).isSome = true := findKey_isSome.2 (List.mem_map_of_mem hr)
  obtain ⟨p, hp, hpk⟩ := List.mem_map.1 ((hs.isSome _).1 hget)
  have hmem : r.idKey ∈ ps.map idKey := List.mem_map.2 ⟨p, hsub p hp hpk, hpk⟩
  obtain ⟨e, he⟩ := Option.isSome_iff_exists.1 ((ht.isSome _).2 hmem)
  refine ⟨e, mem_of_findKey he, key_of_findKey he, fun attr hattr hx => ?_⟩
  obtain ⟨q, hq, hqk, hqx⟩ := (hs.exists_iff hattr _).1 ⟨r, hr, rfl, hx⟩
  exact ((ht.merged _ e he).joint _ hattr).2 ⟨q, hsub q hq hqk, hqk, hqx⟩

theorem Collects.firstKept_eq (h : s.Collects rs) (k : SortKey) :
    firstKept rs k = (s.get? k).map fun r => sortKey r.kept := by
  have hkept := congrArg (Option.map sortKey) (h.kept_eq k)
  rw [Option.map_map, Option.map_map] at hkept
  exact hkept.symm

/-! ## Sets made in different orders -/

abbrev SameOutlines (rs ps : List Reference) : Prop :=
  Paired (fun r p => r.outline = p.outline) rs ps

theorem SameOutlines.exists_iff (h : SameOutlines rs ps) {attr : Reference → Prop}
    (hattr : ∀ r p : Reference, r.outline = p.outline → (attr r ↔ attr p)) (k : SortKey) :
    (∃ r ∈ rs, r.idKey = k ∧ attr r) ↔ ∃ p ∈ ps, p.idKey = k ∧ attr p := by
  constructor
  · rintro ⟨r, hr, rfl, ha⟩
    obtain ⟨p, hp, hrp⟩ := h.forth r hr
    exact ⟨p, hp, (idKey_of_outline hrp).symm, (hattr r p hrp).1 ha⟩
  · rintro ⟨p, hp, rfl, ha⟩
    obtain ⟨r, hr, hrp⟩ := h.back p hp
    exact ⟨r, hr, idKey_of_outline hrp, (hattr r p hrp).2 ha⟩

section
variable (hs : s.Collects rs) (ht : t.Collects ps) (h : SameOutlines rs ps)
include hs ht h

theorem Collects.isSome_iff (k : SortKey) :
    (s.get? k).isSome = true ↔ (t.get? k).isSome = true := by
  rw [hs.isSome, ht.isSome]
  exact h.mem_map_iff (fun _ _ => idKey_of_outline) k

theorem Collects.get?_outline (k : SortKey) :
    (s.get? k).map Reference.outline = (t.get? k).map Reference.outline := by
  have hsome := hs.isSome_iff ht h k
  have hjoint {attr : Reference → Prop} (hj : Joint attr)
      (hattr : ∀ r p : Reference, r.outline = p.outline → (attr r ↔ attr p)) {m n : Reference}
      (hm : s.get? k = some m) (hn : t.get? k = some n) : attr m ↔ attr n := by
    rw [(hs.merged k m hm).joint attr hj, (ht.merged k n hn).joint attr hj]
    exact h.exists_iff hattr k
  cases hm : s.get? k with
  | none => cases hn : t.get? k <;> simp_all
  | some m =>
    cases hn : t.get? k with
    | none => simp [hm, hn] at hsome
    | some n =>
      have hkey : m.idKey = n.idKey := (key_of_findKey hm).trans (key_of_findKey hn).symm
      have hcond : m.condition = n.condition := by
        apply Condition.eq_of_appliesAt
        intro x
        apply hjoint (joint_appliesAt x) _ hm hn
        intro r p hrp
        rw [condition_of_outline hrp]
      have hreq : m.isRequired ↔ n.isRequired :=
        hjoint joint_isRequired (fun _ _ => isRequired_of_outline) hm hn
      rw [Option.map_some, Option.map_some, outline, outline, hkey, hcond, status?_eq hkey hreq]

/-- The identity, the condition and the status do not depend on which came first. -/
theorem Collects.outline_eq : s.toList.map Reference.outline = t.toList.map Reference.outline :=
  s.increasing.map_eq_of_findKey t.increasing _ _ (hs.get?_outline ht h)

/-- All fields agree exactly if those that come first under each identity keep the same. -/
theorem Collects.eq_iff : s.toList.map sortKey = t.toList.map sortKey ↔
    ∀ k, firstKept rs k = firstKept ps k := by
  have hkeys : s.toList.map idKey = t.toList.map idKey := by
    have hfst := congrArg (List.map Prod.fst) (hs.outline_eq ht h)
    rwa [List.map_map, List.map_map] at hfst
  -- Under one key both sets hold references that differ in what they keep, if at all.
  have hone (k : SortKey) : (s.get? k).map sortKey = (t.get? k).map sortKey ↔
      firstKept rs k = firstKept ps k := by
    have hout := hs.get?_outline ht h k
    rw [hs.firstKept_eq, ht.firstKept_eq]
    cases hm : s.get? k with
    | none => cases hn : t.get? k <;> simp_all
    | some m =>
      cases hn : t.get? k with
      | none => simp [hm, hn] at hout
      | some n =>
        rw [hm, hn] at hout
        have hmn : m.outline = n.outline := Option.some.inj hout
        simp [sortKey_eq_iff (idKey_of_outline hmn), condition_of_outline hmn,
          isRequired_of_outline hmn]
  constructor
  · intro heq k
    exact (hone k).1 (findKey_map_eq hkeys heq k)
  · intro hfirst
    exact s.increasing.map_eq_of_findKey t.increasing _ _ fun k => (hone k).2 (hfirst k)

end

end

end References

end BuildGraph
