import BuildGraph.Consumer.Tests
import BuildGraph.Proofs.PathCondition
import BuildGraph.Proofs.References

/-!
# What nodes contribute

In a built graph the net condition of a node does not depend on which nodes were asked
about before. So each node contributes one reference or none, and a query collects the
contributions of its nodes. Targets are found under every spelling of their keys.
-/

namespace BuildGraph

/-! ## Net conditions -/

namespace Wiring

section
variable {w : Wiring}

theorem map_fst_resolveAll (a : Nat) : ∀ (ns : List Nat) (memo : ConditionMemo),
    (w.resolveAll a memo ns).map (·.1) = ns
  | [], _ => rfl
  | n :: ns, _ => congrArg (n :: ·) (map_fst_resolveAll a ns _)

theorem resolve_eq (hw : w.WellFormed) (hac : w.Acyclic) {memo : ConditionMemo}
    (hmemo : w.MemoRight memo) (a b : Nat) :
    (w.resolve memo a b).1 = (w.resolve [] a b).1 ∧ w.MemoRight (w.resolve memo a b).2 := by
  unfold resolve
  by_cases hc : w.isConditional = true
  · obtain ⟨hnet, hmemo'⟩ := between_spec hw hac hmemo a b
    simp only [if_pos hc]
    exact ⟨hnet.unique (between_spec hw hac memoRight_nil a b).1, hmemo'⟩
  · simp only [if_neg hc]
    exact ⟨trivial, hmemo⟩

theorem resolveAll_eq (hw : w.WellFormed) (hac : w.Acyclic) (a : Nat) : ∀ (ns : List Nat)
    {memo : ConditionMemo}, w.MemoRight memo →
      w.resolveAll a memo ns = ns.map fun n => (n, (w.resolve [] a n).1)
  | [], _, _ => rfl
  | n :: ns, memo, hmemo => by
    obtain ⟨hnet, hmemo'⟩ := resolve_eq hw hac hmemo a n
    simp only [resolveAll, List.map_cons, hnet, resolveAll_eq hw hac a ns hmemo']

end

end Wiring

/-! ## Contributions -/

namespace Consumer

variable (c : Consumer)

def net (node : Nat) : NetCondition :=
  (c.graph.wiring.resolve [] c.node node).1

def contribution? (node : Nat) : Option Reference :=
  c.reference? (node, c.net node)

def contributions (nodes : List Nat) : List Reference :=
  nodes.filterMap c.contribution?

def ContributesTo (k : SortKey) (node : Nat) : Prop :=
  ∃ r, c.contribution? node = some r ∧ r.idKey = k

section
variable {c}

theorem resolveAll_eq (hg : c.graph.IsBuilt) (nodes : List Nat) :
    c.resolveAll nodes = nodes.map fun n => (n, c.net n) := by
  obtain ⟨hw, hac⟩ := hg.sound
  exact Wiring.resolveAll_eq hw hac c.node nodes Wiring.memoRight_nil

theorem collects_collect (hg : c.graph.IsBuilt) (nodes : List Nat) :
    (c.collect nodes).Collects (c.contributions nodes) := by
  have h := References.collects_ofList ((c.resolveAll nodes).filterMap c.reference?)
  rw [resolveAll_eq hg, List.filterMap_map] at h
  rw [collect, resolveAll_eq hg, List.filterMap_map]
  exact h

theorem contribution?_eq_some {node : Nat} {r : Reference} : c.contribution? node = some r ↔
    ∃ condition key, (c.net node).condition? = some condition ∧
      c.graph.wiring.key? node = some key ∧ c.referenceFor? condition key = some r := by
  simp only [contribution?, reference?, bind, Option.bind_eq_some_iff]
  tauto

theorem condition?_isSome {net : NetCondition} :
    (∃ condition, net.condition? = some condition) ↔ net ≠ .incompatible := by
  cases net <;> simp [NetCondition.condition?]

theorem contains_collect (hg : c.graph.IsBuilt) {nodes : List Nat} {id : ReferenceKey} :
    (c.collect nodes).contains id = true ↔ ∃ n ∈ nodes, c.ContributesTo (sortKey id) n := by
  rw [(collects_collect hg nodes).contains]
  simp only [contributions, List.mem_filterMap]
  constructor
  · rintro ⟨r, ⟨n, hn, hr⟩, hid⟩
    exact ⟨n, hn, r, hr, hid⟩
  · rintro ⟨n, hn, r, hr, hid⟩
    exact ⟨r, ⟨n, hn, hr⟩, hid⟩

end

end Consumer

/-! ## Identities -/

/-- The identity of the reference that an artifact is linked by; targets and keys that
are never linked have none. -/
def NodeKey.artifact? : NodeKey → Option ReferenceKey
  | .prebuilt b =>
    match b.origin with
    | .framework => some (.framework b.path)
    | .library _ _ => some (.library b.path)
    | .xcframework _ => some (.xcframework b.path)
  | .sdk _ path _ _ => some (.sdk path)
  | .bundle path => some (.bundle path)
  | _ => none

namespace Consumer

section
variable {c : Consumer}

theorem id_referenceFor? {condition : Option Condition} {key : NodeKey} {r : Reference}
    (h : c.referenceFor? condition key = some r) :
    key.artifact? = some r.id ∨ ∃ id t, key = .target id ∧
      c.graph.targetOfId? id = some t ∧ r = .ofTarget t condition := by
  cases key with
  | target id =>
    simp only [referenceFor?, Option.map_eq_some_iff] at h
    obtain ⟨t, ht, rfl⟩ := h
    exact .inr ⟨id, t, rfl, ht, rfl⟩
  | prebuilt b =>
    cases Option.some.inj h
    left
    simp only [NodeKey.artifact?, Reference.ofBinary]
    cases b.origin <;> rfl
  | sdk name path status source =>
    cases Option.some.inj h
    exact .inl rfl
  | bundle path =>
    cases Option.some.inj h
    exact .inl rfl
  | packageProduct | macroExecutable => cases h

theorem exists_reference {key : NodeKey} {id : ReferenceKey} (h : key.artifact? = some id)
    (condition : Option Condition) :
    ∃ r, c.referenceFor? condition key = some r ∧ r.id = id := by
  cases key with
  | prebuilt b =>
    refine ⟨_, rfl, ?_⟩
    simp only [NodeKey.artifact?] at h
    simp only [Reference.ofBinary]
    cases ho : b.origin <;> simp_all [Reference.id]
  | sdk name path status source => exact ⟨_, rfl, Option.some.inj h⟩
  | bundle path => exact ⟨_, rfl, Option.some.inj h⟩
  | target | packageProduct | macroExecutable => cases h

theorem artifact?_ne_product {key : NodeKey} {name target : String} {project : Path}
    {i : ReferenceKey} (h : key.artifact? = some i) :
    sortKey i ≠ sortKey (ReferenceKey.product name project target) := by
  intro he
  change i.order = ReferenceKey.order _ at he
  cases i with
  | product =>
    cases key with
    | prebuilt b =>
      simp only [NodeKey.artifact?] at h
      cases ho : b.origin <;> simp [ho] at h
    | _ => simp [NodeKey.artifact?] at h
  | _ => simp [ReferenceKey.order] at he

end

end Consumer

/-! ## Targets under their keys -/

theorem Project.mem_of_lastTarget? {p : Project} {name : String} {t : Target}
    (h : p.lastTarget? name = some t) : t ∈ p.targets ∧ t.name = name := by
  constructor
  · exact List.mem_reverse.1 (List.mem_of_find?_eq_some h)
  · simpa using List.find?_some h

namespace Graph

section
variable {g : Graph} {path path' : Path} {name : String} {t : ProjectTarget}

theorem at?_congr (h : sortKey path = sortKey path') :
    g.projects.at? path = g.projects.at? path' := by
  simp only [ProjectTable.at?, same, h]

theorem target?_congr (h : sortKey path = sortKey path') :
    g.target? path name = g.target? path' name := by
  rw [target?, target?, at?_congr h]

theorem target?_eq_some (h : g.target? path name = some t) : ∃ entry ∈ g.projects,
    sortKey entry.path = sortKey path ∧ entry.project.lastTarget? name = some t.target ∧
      t.path = entry.path ∧ t.project = entry.project := by
  simp only [target?, bind, Option.bind_eq_some_iff] at h
  obtain ⟨entry, hat, target, hlast, ht⟩ := h
  obtain ⟨hmem, hpath⟩ := ProjectTable.at?_eq_some hat
  cases Option.some.inj ht
  exact ⟨entry, hmem, hpath, hlast, rfl, rfl⟩

theorem path_and_name (h : g.target? path name = some t) :
    sortKey t.path = sortKey path ∧ t.name = name := by
  obtain ⟨entry, -, hpath, hlast, htp, -⟩ := target?_eq_some h
  exact ⟨htp ▸ hpath, (Project.mem_of_lastTarget? hlast).2⟩

theorem target?_self (h : g.target? path name = some t) : g.target? t.path t.name = some t := by
  obtain ⟨hpath, hname⟩ := path_and_name h
  rw [hname, target?_congr hpath, h]

theorem targetOfNode?_eq_some {node : Nat} (h : g.targetOfNode? node = some t) :
    g.wiring.sortKey? node = some (sortKey t.key) ∧ g.target? t.path t.name = some t := by
  simp only [targetOfNode?, targetOfKey?, Option.bind_eq_some_iff] at h
  obtain ⟨key, hkey, id, hid, ht⟩ := h
  cases key with
  | target id' =>
    cases hid
    obtain ⟨hpath, hname⟩ := path_and_name ht
    refine ⟨?_, target?_self ht⟩
    rw [Wiring.sortKey?, hkey, Option.map_some, Option.some.injEq]
    exact congrArg (SortKey.cons (.num 0)) (sortKey_targetId.2 ⟨hpath.symm, hname.symm⟩)
  | _ => cases hid

theorem graph_of_consumer? {c : Consumer} (h : g.consumer? path name = some c) : c.graph = g := by
  simp only [consumer?, bind, Option.bind_eq_some_iff] at h
  obtain ⟨target, -, node, -, hc⟩ := h
  exact (Option.some.inj hc) ▸ rfl

theorem consumerOf?_of_node (hw : g.wiring.WellFormed) {node : Nat}
    (h : g.targetOfNode? node = some t) : g.consumerOf? t = some ⟨g, node, t⟩ := by
  obtain ⟨hkey, hself⟩ := targetOfNode?_eq_some h
  have hnode : g.wiring.node? (.ofTarget t.path t.name) = some node := hw.node?_eq_some.2 hkey
  simp [consumerOf?, consumer?, hself, hnode]

end

end Graph

namespace Consumer

section
variable {c : Consumer} {t : ProjectTarget}

theorem artifact_or_target {d : Consumer} {k l : NodeKey} {cond cond' : Option Condition}
    {r s : Reference} (hr : c.referenceFor? cond k = some r) (hs : d.referenceFor? cond' l = some s)
    (hid : r.idKey = s.idKey) :
    (∃ i j, k.artifact? = some i ∧ l.artifact? = some j ∧ sortKey i = sortKey j) ∨
      sortKey k = sortKey l ∧ sortKey r.kept = sortKey s.kept := by
  rcases id_referenceFor? hr with hk | ⟨id, t, rfl, ht, rfl⟩ <;>
    rcases id_referenceFor? hs with hl | ⟨id', t', rfl, ht', rfl⟩
  · exact .inl ⟨_, _, hk, hl, hid⟩
  · exact absurd hid (artifact?_ne_product hk)
  · exact absurd hid.symm (artifact?_ne_product hl)
  · right
    obtain ⟨hpath, hname⟩ := Graph.path_and_name ht
    obtain ⟨hpath', hname'⟩ := Graph.path_and_name ht'
    change ReferenceKey.order (.product ..) = ReferenceKey.order (.product ..) at hid
    simp only [ReferenceKey.order, SortKey.variant_inj, List.cons.injEq, sortKey_string,
      and_true, true_and] at hid
    obtain ⟨hfile, hproject, htarget⟩ := hid
    constructor
    · apply congrArg (SortKey.cons (.num 0)) (sortKey_targetId.2 ⟨?_, ?_⟩)
      · rw [← hpath, ← hpath', hproject]
      · rw [← hname, ← hname']
        exact htarget
    · change Reference.order (.product ..) = Reference.order (.product ..)
      rw [Reference.order, Reference.order, hfile, hproject, htarget]

theorem targetUse?_eq_some {resolved : Nat × NetCondition} {u : TargetUse} :
    c.targetUse? resolved = some u ↔ c.graph.targetOfNode? resolved.1 = some u.target ∧
      resolved.2.condition? = some u.condition := by
  simp only [targetUse?, bind, Option.bind_eq_some_iff]
  constructor
  · rintro ⟨t, ht, condition, hcond, hu⟩
    cases Option.some.inj hu
    exact ⟨ht, hcond⟩
  · rintro ⟨ht, hcond⟩
    exact ⟨_, ht, _, hcond, rfl⟩

theorem mem_directTargets {u : TargetUse} (h : u ∈ c.directTargets) :
    ∃ node ∈ c.successors, c.graph.targetOfNode? node = some u.target := by
  have hmem := mem_collectBy_keepLast h
  obtain ⟨⟨node, net⟩, hnode, hu⟩ := List.mem_filterMap.1 hmem
  have hin : node ∈ c.graph.wiring.nodes.filter c.successors.contains := by
    have hfst := List.mem_map_of_mem (f := (·.1)) hnode
    rwa [resolveAll, Wiring.map_fst_resolveAll] at hfst
  exact ⟨node, by simpa using (List.mem_filter.1 hin).2, (targetUse?_eq_some.1 hu).1⟩

theorem host?_eq_some (hg : c.graph.IsBuilt) (h : c.host? = some t) :
    ∃ node ∈ c.successors, c.graph.consumerOf? t = some ⟨c.graph, node, t⟩ := by
  obtain ⟨u, hu, rfl⟩ := List.mem_map.1 (List.mem_of_find?_eq_some h)
  obtain ⟨node, hnode, ht⟩ := mem_directTargets hu
  exact ⟨node, hnode, Graph.consumerOf?_of_node hg.sound.1 ht⟩

end

end Consumer

end BuildGraph
