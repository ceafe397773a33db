import BuildGraph.Proofs.Passage

/-!
# Targets behind nodes

In a built graph every target node has a registered target, and all nodes on the way to a
target are targets. The product of a target is in an answer exactly if its node was
collected and is needed on some platform.
-/

namespace BuildGraph

/-! ## Classes of products -/

namespace Product

def isCodeless : Product → Bool
  | bundle | stickerPackExtension => true
  | _ => false

variable {p : Product}

theorem linksStaticCode_eq_false :
    p.linksStaticCode = false ↔ p.isStatic = true ∨ p.isCodeless = true := by
  cases p <;> simp [linksStaticCode, isStatic, isCodeless]

theorem linksStaticCode_or_macro :
    (p.linksStaticCode || p == compilerMacro) = p.linksStaticCode := by
  cases p <;> rfl

end Product

/-! ## Net conditions -/

theorem Wiring.IsNet.ne_incompatible_iff {w : Wiring} {a b : Nat} {net : NetCondition}
    (h : w.IsNet a b net) : net ≠ .incompatible ↔ ∃ es, w.IsRoute a es b ∧
      ∃ p : Platform, ∀ e ∈ es, Condition.appliesAt e.condition (some p) = true := by
  rw [Ne, NetCondition.eq_incompatible_iff]
  simp only [not_forall, Bool.not_eq_false, h _]
  constructor
  · rintro ⟨p, es, hes, hp⟩
    exact ⟨es, hes, p, hp⟩
  · rintro ⟨es, hes, p, hp⟩
    exact ⟨p, es, hes, hp⟩

theorem Wiring.isNet_between {w : Wiring} (hw : w.WellFormed) (hac : w.Acyclic) (a b : Nat) :
    w.IsNet a b (w.between [] a b).1 :=
  (between_spec hw hac memoRight_nil a b).1

/-- Where nothing is conditional, each route applies everywhere. So the shortcut is right for
a node that is reached, and only for such a node. -/
theorem Wiring.isNet_resolve {w : Wiring} (hw : w.WellFormed) (hac : w.Acyclic)
    {memo : ConditionMemo} (hmemo : w.MemoRight memo) {a b : Nat} (hr : w.Reaches a b) :
    w.IsNet a b (w.resolve memo a b).1 := by
  unfold resolve
  by_cases hc : w.isConditional = true
  · rw [if_pos hc]
    exact (between_spec hw hac hmemo a b).1
  · rw [if_neg hc]
    obtain ⟨es, hes⟩ := hr
    refine fun x => iff_of_true rfl ⟨es, hes, fun e he => ?_⟩
    cases hcond : e.condition with
    | none => rfl
    | some _ => exact absurd (List.any_eq_true.2 ⟨e, hes.mem_edges e he, by rw [hcond]; rfl⟩) hc

theorem Consumer.isNet_net {c : Consumer} (hg : c.graph.IsBuilt) {n : Nat}
    (hn : c.graph.wiring.Reaches c.node n) : c.graph.wiring.IsNet c.node n (c.net n) := by
  obtain ⟨hw, hac⟩ := hg.sound
  exact Wiring.isNet_resolve hw hac Wiring.memoRight_nil hn

namespace Graph

section
variable {g : Graph} {k l : NodeKey} {a b : Nat}

theorem IsBuilt.isNet_netCondition (hg : g.IsBuilt) (ha : g.wiring.node? k = some a)
    (hb : g.wiring.node? l = some b) : g.wiring.IsNet a b (g.netCondition k l) := by
  obtain ⟨hw, hac⟩ := hg.sound
  simp only [netCondition, ha, hb]
  exact Wiring.isNet_between hw hac a b

theorem IsBuilt.netCondition_of_route (hg : g.IsBuilt) (ha : g.wiring.node? k = some a)
    (hb : g.wiring.node? l = some b) {es : List Edge} (hes : g.wiring.IsRoute a es b)
    (hfree : ∀ e ∈ es, e.condition = none) : g.netCondition k l ≠ .incompatible := by
  refine (hg.isNet_netCondition ha hb).ne_incompatible_iff.2 ⟨es, hes, .ios, fun e he => ?_⟩
  rw [hfree e he]
  rfl

theorem nodes_of_netCondition (h : g.netCondition k l ≠ .incompatible) :
    ∃ a b, g.wiring.node? k = some a ∧ g.wiring.node? l = some b := by
  unfold netCondition at h
  cases ha : g.wiring.node? k with
  | none => simp [ha] at h
  | some a =>
    cases hb : g.wiring.node? l with
    | none => simp [ha, hb] at h
    | some b => exact ⟨a, b, rfl, rfl⟩

theorem IsBuilt.net_eq (hg : g.IsBuilt) {c : Consumer} (hc : c.graph = g)
    (ha : g.wiring.node? k = some c.node) (hb : g.wiring.node? l = some b)
    (hr : g.wiring.Reaches c.node b) : c.net b = g.netCondition k l := by
  subst hc
  exact (c.isNet_net hg hr).unique (hg.isNet_netCondition ha hb)

/-! ## Targets of a built graph -/

theorem IsBuilt.exists_draft (hg : g.IsBuilt) : ∃ d : Draft, d.Sound ∧ d.wiring.WellFormed ∧
    IncreasingBy sortKey d.projects ∧ g = ⟨d.workspace, d.projects, d.wiring⟩ := by
  obtain ⟨workspace, calls, hb⟩ := hg
  obtain ⟨hsound, heq⟩ := Draft.sound_of_build hb
  exact ⟨_, hsound, Draft.wellFormed_ofCalls workspace calls,
    Draft.projects_increasing workspace calls, heq⟩

theorem IsBuilt.exists_target (hg : g.IsBuilt) {n : Nat}
    (h : g.wiring.holds NodeKey.isTarget n = true) : ∃ t, g.targetOfNode? n = some t := by
  obtain ⟨d, hsound, -, hinc, rfl⟩ := hg.exists_draft
  obtain ⟨key, hkey, ht⟩ := Wiring.holds_iff.1 h
  cases key with
  | target id =>
    obtain ⟨entry, hentry, hpath, t, ht, hname⟩ := hsound.registered id (Wiring.mem_keys_of_key? hkey)
    have hat : d.projects.at? id.projectPath = some entry := by
      cases hfound : d.projects.at? id.projectPath with
      | none => exact absurd hpath (ProjectTable.at?_eq_none hfound entry hentry)
      | some other =>
        obtain ⟨hother, hsame⟩ := ProjectTable.at?_eq_some hfound
        rw [List.inj_on_of_nodup_map hinc.nodup hother hentry (hsame.trans hpath.symm)]
    cases hlast : entry.project.lastTarget? id.name with
    | none =>
      have := List.find?_eq_none.1 hlast t (List.mem_reverse.2 ht)
      exact absurd hname (by simpa using this)
    | some u =>
      refine ⟨⟨entry.path, u, entry.project⟩, ?_⟩
      simp [targetOfNode?, targetOfKey?, targetOfId?, target?, hkey, NodeKey.target?, hat, hlast]
  | _ => cases ht

theorem IsBuilt.isTarget_route (hg : g.IsBuilt) {es : List Edge} (hes : g.wiring.IsRoute a es b)
    (hb : g.wiring.holds NodeKey.isTarget b = true) :
    ∀ e ∈ es, g.wiring.holds NodeKey.isTarget e.source = true := by
  obtain ⟨d, hsound, hw, -, rfl⟩ := hg.exists_draft
  exact Draft.isTarget_route hsound.uncrossed hw hes hb

/-! ## Finding targets -/

section
variable {path : Path} {name : String} {t : ProjectTarget} {n : Nat}

theorem consumer?_eq_some {c : Consumer} (h : g.consumer? path name = some c) :
    c.graph = g ∧ g.target? path name = some c.target ∧
      g.wiring.node? (.ofTarget path name) = some c.node := by
  simp only [consumer?, bind, Option.bind_eq_some_iff] at h
  obtain ⟨t, ht, n, hn, hc⟩ := h
  cases Option.some.inj hc
  exact ⟨rfl, ht, hn⟩

theorem targetOfNode?_of_node? (ht : g.target? path name = some t)
    (hn : g.wiring.node? (.ofTarget path name) = some n) : g.targetOfNode? n = some t := by
  obtain ⟨key, hkey, hsame⟩ := Wiring.sortKey?_eq_some.1 (Wiring.sortKey?_of_node? hn)
  cases NodeKey.alike_of_sortKey hsame with
  | target hpath hname =>
    simp [targetOfNode?, targetOfKey?, targetOfId?, hkey, NodeKey.target?, hname,
      target?_congr hpath, ht]

theorem key?_of_targetOfNode? (h : g.targetOfNode? n = some t) :
    ∃ id, g.wiring.key? n = some (.target id) ∧ g.targetOfId? id = some t := by
  simp only [targetOfNode?, targetOfKey?, Option.bind_eq_some_iff] at h
  obtain ⟨key, hkey, id, hid, ht⟩ := h
  cases key with
  | target id' => exact ⟨id', hkey, (Option.some.inj hid) ▸ ht⟩
  | _ => cases hid

/-! ## Roles of targets -/

theorem holds_of_key? {p : NodeKey → Bool} (h : g.wiring.key? n = some k) :
    g.wiring.holds p n = p k := by
  rw [Wiring.holds, h, Option.any_some]

theorem holds_targetSatisfies {p : Target → Bool} :
    g.wiring.holds (g.targetSatisfies p) n = true ↔
      ∃ t, g.targetOfNode? n = some t ∧ p t.target = true := by
  simp only [Wiring.holds_iff, targetSatisfies, Option.any_eq_true, targetOfNode?,
    Option.bind_eq_some_iff]
  constructor
  · rintro ⟨key, hkey, t, ht, hp⟩
    exact ⟨t, ⟨key, hkey, ht⟩, hp⟩
  · rintro ⟨t, ⟨key, hkey, ht⟩, hp⟩
    exact ⟨key, hkey, t, ht, hp⟩

theorem prebuilt_or_target (onBinary : Prebuilt → Bool) (onTarget : Target → Bool)
    {q : NodeKey → Bool} (h : g.wiring.holds q n = true)
    (hq : ∀ key, q key = (key.prebuilt?.any onBinary || g.targetSatisfies onTarget key)) :
    (∃ b, g.wiring.key? n = some (.prebuilt b) ∧ onBinary b = true) ∨
      ∃ t, g.targetOfNode? n = some t ∧ onTarget t.target = true := by
  obtain ⟨key, hkey, hkind⟩ := Wiring.holds_iff.1 h
  rw [hq, Bool.or_eq_true] at hkind
  rcases hkind with hbinary | htarget
  · cases key with
    | prebuilt b => exact .inl ⟨b, hkey, hbinary⟩
    | _ => cases hbinary
  · exact .inr (holds_targetSatisfies.1 (Wiring.holds_iff.2 ⟨key, hkey, htarget⟩))

theorem prebuilt_or_target_of_static (h : g.wiring.holds g.isStatic n = true) :
    (∃ b, g.wiring.key? n = some (.prebuilt b) ∧ b.isStatic = true) ∨
      ∃ t, g.targetOfNode? n = some t ∧ t.product.isStatic = true := by
  refine prebuilt_or_target (·.isStatic) (·.product.isStatic) h fun key => ?_
  cases key with
  | prebuilt b => exact (Bool.or_false _).symm
  | _ => rfl

section
variable (h : g.targetOfNode? n = some t)
include h

theorem holds_target (p : Target → Bool) :
    g.wiring.holds (g.targetSatisfies p) n = p t.target := by
  rw [Bool.eq_iff_iff, holds_targetSatisfies, h]
  simp

theorem holds_isTarget : g.wiring.holds NodeKey.isTarget n = true := by
  obtain ⟨id, hid, -⟩ := key?_of_targetOfNode? h
  rw [holds_of_key? hid]
  rfl

theorem holds_role (p : Target → Bool) {q : NodeKey → Bool}
    (hq : ∀ id, q (.target id) = g.targetSatisfies p (.target id)) :
    g.wiring.holds q n = p t.target := by
  obtain ⟨id, hid, -⟩ := key?_of_targetOfNode? h
  rw [← holds_target h p, holds_of_key? hid, holds_of_key? hid, hq]

theorem holds_isStatic : g.wiring.holds g.isStatic n = t.product.isStatic :=
  holds_role h (·.product.isStatic) fun _ => rfl

theorem holds_linksStaticCode : g.wiring.holds g.linksStaticCode n = t.product.linksStaticCode :=
  holds_role h (·.product.linksStaticCode) fun _ => rfl

theorem holds_isMacro : g.wiring.holds g.isMacro n = (t.product == .compilerMacro) :=
  holds_role h (·.product == .compilerMacro) fun _ => rfl

theorem holds_linksOrMacro : g.wiring.holds (fun key => g.linksStaticCode key || g.isMacro key) n =
    t.product.linksStaticCode := by
  rw [Wiring.holds_or, holds_linksStaticCode h, holds_isMacro h, Product.linksStaticCode_or_macro]

theorem holds_isMergedBy (target : Target) :
    g.wiring.holds (g.isMergedBy target) n = g.isMergedBy target t.key := by
  obtain ⟨id, hid, ht⟩ := key?_of_targetOfNode? h
  have hname : t.name = id.name := (path_and_name ht).2
  have hself : g.targetOfId? t.id = some t := (targetOfNode?_eq_some h).2
  rw [holds_of_key? hid]
  simp only [ProjectTarget.key, isMergedBy, targetSatisfies, targetOfKey?, NodeKey.target?,
    Option.bind_some, ht, hself]
  rw [ProjectTarget.id, hname]

end

end

end

end Graph

/-- On the way to another node that is needed, the last target of a kind needs it itself. -/
theorem Graph.IsBuilt.exists_last_target_before {g : Graph} (hg : g.IsBuilt) {k l : NodeKey}
    {a b : Nat} (ha : g.wiring.node? k = some a) (hb : g.wiring.node? l = some b)
    (hnet : g.netCondition k l ≠ .incompatible) {p : Target → Bool}
    (hfirst : g.wiring.holds (g.targetSatisfies p) a = true) (hne : a ≠ b) :
    ∃ i : Consumer, i.graph = g ∧ g.targetOfNode? i.node = some i.target ∧
      p i.description = true ∧ g.wiring.Reaches a i.node ∧
      g.wiring.Passes (g.targetSatisfies p) i.node b ∧ i.net b ≠ .incompatible := by
  obtain ⟨es, hes, x, hx⟩ := (hg.isNet_netCondition ha hb).ne_incompatible_iff.1 hnet
  have hlong : es ≠ [] := by
    rintro rfl
    exact hne hes
  obtain ⟨m, fs, gs, rfl, hgs, hfs, hm, hroute, htail⟩ := hes.exists_last_before hlong hfirst
  obtain ⟨t, ht, hp⟩ := holds_targetSatisfies.1 hm
  refine ⟨⟨g, m, t⟩, rfl, ht, hp, ⟨fs, hfs⟩, ⟨gs, hgs, hroute, htail⟩, ?_⟩
  refine (Consumer.isNet_net (c := ⟨g, m, t⟩) hg ⟨gs, hroute⟩).ne_incompatible_iff.2
    ⟨gs, hroute, x, fun e he => hx e (List.mem_append_right _ he)⟩

theorem Graph.IsBuilt.exists_last_target {g : Graph} (hg : g.IsBuilt) {k l : NodeKey} {a b : Nat}
    (ha : g.wiring.node? k = some a) (hb : g.wiring.node? l = some b)
    (hnet : g.netCondition k l ≠ .incompatible) {p : Target → Bool}
    (hfirst : g.wiring.holds (g.targetSatisfies p) a = true)
    (hend : g.wiring.holds (g.targetSatisfies p) b = false) :
    ∃ i : Consumer, i.graph = g ∧ g.targetOfNode? i.node = some i.target ∧
      p i.description = true ∧ g.wiring.Reaches a i.node ∧
      g.wiring.Passes (g.targetSatisfies p) i.node b ∧ i.net b ≠ .incompatible := by
  refine hg.exists_last_target_before ha hb hnet hfirst ?_
  rintro rfl
  rw [hend] at hfirst
  cases hfirst

/-! ## Products in answers -/

namespace Consumer

section
variable {c : Consumer} {nodes : List Nat} {n : Nat} {t : ProjectTarget}

theorem contribution?_target (h : c.graph.targetOfNode? n = some t) {condition : Option Condition}
    (hcond : (c.net n).condition? = some condition) :
    c.contribution? n = some (.ofTarget t condition) := by
  obtain ⟨id, hid, ht⟩ := Graph.key?_of_targetOfNode? h
  exact contribution?_eq_some.2 ⟨condition, _, hcond, hid, by rw [referenceFor?, ht, Option.map_some]⟩

theorem contains_collect_product (hg : c.graph.IsBuilt) (h : c.graph.targetOfNode? n = some t) :
    (c.collect nodes).contains (Reference.ofTarget t none).id = true ↔
      n ∈ nodes ∧ c.net n ≠ .incompatible := by
  rw [contains_collect hg]
  constructor
  · rintro ⟨m, hm, r, hr, hid⟩
    obtain ⟨condition, k, hcond, hk, hrk⟩ := contribution?_eq_some.1 hr
    obtain ⟨id, hn, ht⟩ := Graph.key?_of_targetOfNode? h
    have ht' : c.referenceFor? none (.target id) = some (.ofTarget t none) := by
      rw [referenceFor?, ht, Option.map_some]
    rcases artifact_or_target hrk ht' hid with ⟨_, _, -, hj, -⟩ | ⟨hsame, -⟩
    · cases hj
    · obtain rfl : m = n := hg.sound.1.node_eq (Wiring.sortKey?_eq_some.2 ⟨k, hk, hsame⟩)
        (Wiring.sortKey?_eq_some.2 ⟨_, hn, rfl⟩)
      exact ⟨hm, condition?_isSome.1 ⟨condition, hcond⟩⟩
  · rintro ⟨hn, hnet⟩
    obtain ⟨condition, hcond⟩ := condition?_isSome.2 hnet
    exact ⟨n, hn, _, contribution?_target h hcond, rfl⟩

end

end Consumer

end BuildGraph
