import BuildGraph.Graph.Listing
import BuildGraph.Proofs.DirectTargets

/-!
# The build order

The loop lists a target once its counter is zero. The counter of a target is the number
of its direct dependencies that are not listed yet, and in a graph without cycles some
target always waits for none. So all targets come, each after its dependencies, and
always the least of those whose turn it can be.
-/

namespace BuildGraph.Graph

section
variable {g : Graph} {t u d : ProjectTarget} {listed : List ProjectTarget}

/-! ## The targets of a graph -/

theorem mem_targetNames {p : Project} {name : String} :
    name ∈ p.targetNames ↔ name ∈ p.targets.map (·.name) :=
  mem_collectBy_of_inj (fun _ _ => .inl rfl) (keepsKey_keepFirst sortKey)
    fun _ _ _ _ h => sortKey_string_injective h

theorem mem_targetsOf {path : Path} :
    t ∈ g.targetsOf path ↔ ∃ name, g.target? path name = some t := by
  unfold targetsOf
  cases hat : g.projects.at? path with
  | none => simp [target?, hat]
  | some entry =>
    rw [List.mem_filterMap]
    refine exists_congr fun name => and_iff_right_of_imp fun ht => ?_
    simp only [target?, hat, Option.bind_some, bind, Option.bind_eq_some_iff] at ht
    obtain ⟨target, hlast, -⟩ := ht
    obtain ⟨hmem, hname⟩ := Project.mem_of_lastTarget? hlast
    exact mem_targetNames.2 (hname ▸ List.mem_map_of_mem hmem)

theorem mem_targets : t ∈ g.targets ↔ ∃ path name, g.target? path name = some t := by
  unfold targets
  simp only [List.mem_flatMap, mem_targetsOf]
  refine ⟨fun ⟨entry, _, name, ht⟩ => ⟨entry.path, name, ht⟩, fun ⟨path, name, ht⟩ => ?_⟩
  obtain ⟨entry, hentry, hpath, -⟩ := target?_eq_some ht
  exact ⟨entry, hentry, name, target?_congr hpath ▸ ht⟩

theorem mem_targets_self : t ∈ g.targets ↔ g.target? t.path t.name = some t := by
  rw [mem_targets]
  exact ⟨fun ⟨_, _, ht⟩ => target?_self ht, fun ht => ⟨_, _, ht⟩⟩

theorem eq_of_same (ht : t ∈ g.targets) (hu : u ∈ g.targets) : same t u = true ↔ t = u := by
  rw [same_iff]
  exact ⟨eq_of_sortKey (mem_targets_self.1 ht) (mem_targets_self.1 hu), congrArg sortKey⟩

theorem compare_targets : compare (sortKey t) (sortKey u) =
    (compare (sortKey t.path) (sortKey u.path)).then (compare (sortKey t.name) (sortKey u.name)) := by
  show compare (SortKey.ofList [_, _]) (SortKey.ofList [_, _]) = _
  rw [SortKey.compare_ofList_cons, SortKey.compare_ofList_cons, SortKey.compare_self (.ofList []),
    Ordering.then_eq]
  rfl

theorem targetsOf_increasing (path : Path) : IncreasingBy sortKey (g.targetsOf path) := by
  unfold targetsOf
  cases hat : g.projects.at? path with
  | none => exact .nil
  | some entry =>
    refine List.pairwise_filterMap.2 ?_
    refine (collectBy_increasing (keepsKey_keepFirst sortKey) _).imp fun {x y} hxy t ht u hu => ?_
    obtain ⟨htpath, htname⟩ := path_and_name ht
    obtain ⟨hupath, huname⟩ := path_and_name hu
    rw [compare_targets, htpath, hupath, SortKey.compare_self, htname, huname]
    exact hxy

theorem IsBuilt.targets_increasing (hg : g.IsBuilt) : IncreasingBy sortKey g.targets := by
  obtain ⟨d, -, -, hinc, rfl⟩ := hg.exists_draft
  refine List.pairwise_flatMap.2 ⟨fun entry _ => targetsOf_increasing entry.path, ?_⟩
  refine hinc.imp fun {e f} hef t ht u hu => ?_
  obtain ⟨_, ht⟩ := mem_targetsOf.1 ht
  obtain ⟨_, hu⟩ := mem_targetsOf.1 hu
  rw [compare_targets, (path_and_name ht).1, (path_and_name hu).1]
  have hef : compare (sortKey e.path) (sortKey f.path) = .lt := hef
  rw [hef]
  rfl

theorem Requires.mem_targets (h : g.Requires t d) : t ∈ g.targets ∧ d ∈ g.targets := by
  obtain ⟨e, -, ht, hd⟩ := h
  exact ⟨mem_targets_self.2 (targetOfNode?_eq_some ht).2,
    mem_targets_self.2 (targetOfNode?_eq_some hd).2⟩

theorem mem_successorTargets (hw : g.wiring.WellFormed) (ht : t ∈ g.targets) :
    d ∈ g.successorTargets t ↔ g.Requires t d := by
  have hself := mem_targets_self.1 ht
  unfold successorTargets
  cases hn : g.wiring.node? t.key with
  | none =>
    refine iff_of_false (by simp) fun ⟨e, _, hes, _⟩ => ?_
    rw [hw.node?_eq_some.2 (targetOfNode?_eq_some hes).1] at hn
    cases hn
  | some n =>
    have hnode : g.targetOfNode? n = some t := targetOfNode?_of_node? hself hn
    rw [mem_collectBy_keepLast_of_inj, List.mem_filterMap]
    · refine ⟨fun ⟨m, hm, hd⟩ => ?_, fun ⟨e, he, hes, hd⟩ => ?_⟩
      · obtain ⟨e, he, hs, rfl⟩ := Wiring.mem_successors.1 hm
        exact ⟨e, he, hs ▸ hnode, hd⟩
      · exact ⟨_, Wiring.mem_successors.2 ⟨e, he, node_eq_of_sortKey hw hes hnode rfl, rfl⟩, hd⟩
    · intro x hx y hy hxy
      obtain ⟨n, -, hx⟩ := List.mem_filterMap.1 hx
      obtain ⟨m, -, hy⟩ := List.mem_filterMap.1 hy
      exact eq_of_sortKey (targetOfNode?_eq_some hx).2 (targetOfNode?_eq_some hy).2 hxy

theorem successorTargets_nodup (t : ProjectTarget) : (g.successorTargets t).Nodup := by
  unfold successorTargets
  split
  · exact .nil
  · exact (collectBy_increasing (keepsKey_keepLast sortKey) _).nodup.of_map

/-! ## Whose turn it is -/

structure IsReady (g : Graph) (listed : List ProjectTarget) (t : ProjectTarget) : Prop where
  registered : t ∈ g.targets
  unlisted : t ∉ listed
  unblocked : ∀ d, g.Requires t d → d ∈ listed

theorem IsBuilt.exists_ready (hg : g.IsBuilt) (ht : t ∈ g.targets) (hlisted : t ∉ listed) :
    ∃ u, g.IsReady listed u := by
  obtain ⟨hw, hac⟩ := hg.sound
  -- below a node of a target that is not listed there is a ready target
  have hbelow (n : Nat) : ∀ t, g.targetOfNode? n = some t → t ∉ listed →
      ∃ u, g.IsReady listed u := by
    induction n using hac.induction with
    | step n ih =>
      intro t hn hlisted
      by_cases h : ∃ d, g.Requires t d ∧ d ∉ listed
      · obtain ⟨d, ⟨e, he, hes, hd⟩, hdlisted⟩ := h
        have hs : e.source = n := node_eq_of_sortKey hw hes hn rfl
        exact ih e.target (Wiring.mem_successors.2 ⟨e, he, hs, rfl⟩) d hd hdlisted
      · refine ⟨t, mem_targets_self.2 (targetOfNode?_eq_some hn).2, hlisted, fun d hd => ?_⟩
        by_contra hdlisted
        exact h ⟨d, hd, hdlisted⟩
  by_cases h : ∃ d, g.Requires t d ∧ d ∉ listed
  · obtain ⟨d, ⟨e, -, -, hd⟩, hdlisted⟩ := h
    exact hbelow e.target d hd hdlisted
  · refine ⟨t, ht, hlisted, fun d hd => ?_⟩
    by_contra hdlisted
    exact h ⟨d, hd, hdlisted⟩

/-! ## The counters -/

def pendingAtStart (g : Graph) : List Pending :=
  g.targets.map fun t =>
    let dependencies := g.successorTargets t
    { target := t, dependencies, unlisted := dependencies.length }

def pendingAfter (pending : List Pending) (t : ProjectTarget) : List Pending :=
  (pending.filter fun p => !same p.target t).map (·.afterListing t)

def remaining (listed ts : List ProjectTarget) : List ProjectTarget :=
  ts.filter (· ∉ listed)

/-- Each target that is still to come, with the number of its dependencies to come. -/
def waiting (g : Graph) (listed : List ProjectTarget) : List Pending :=
  (remaining listed g.targets).map fun t =>
    ⟨t, g.successorTargets t, (remaining listed (g.successorTargets t)).length⟩

section
variable {ts : List ProjectTarget}

@[simp] theorem mem_remaining : t ∈ remaining listed ts ↔ t ∈ ts ∧ t ∉ listed := by
  simp [remaining]

theorem remaining_append (h : ts.Nodup) :
    remaining (listed ++ [t]) ts = (remaining listed ts).erase t := by
  have hnodup : (remaining listed ts).Nodup := h.filter _
  rw [hnodup.erase_eq_filter]
  unfold remaining
  rw [List.filter_filter]
  congr 1
  funext d
  by_cases hd : d = t <;> simp [hd]

theorem remaining_eq_nil : remaining listed ts = [] ↔ ∀ t ∈ ts, t ∈ listed := by
  simp [remaining, List.filter_eq_nil_iff]

end

theorem waiting_nil : g.waiting [] = g.pendingAtStart := by
  simp [waiting, remaining, pendingAtStart]

theorem pendingAfter_waiting (hg : g.IsBuilt) (ht : t ∈ g.targets) (hlisted : t ∉ listed) :
    pendingAfter (g.waiting listed) t = g.waiting (listed ++ [t]) := by
  have hnodup : (remaining listed g.targets).Nodup := hg.targets_increasing.nodup.of_map.filter _
  unfold pendingAfter waiting
  rw [List.filter_map, List.map_map, remaining_append hg.targets_increasing.nodup.of_map,
    hnodup.erase_eq_filter]
  have hothers : (remaining listed g.targets).filter (fun u => !same u t) =
      (remaining listed g.targets).filter (· != t) := by
    refine List.filter_congr fun u hu => ?_
    have h := eq_of_same (mem_remaining.1 hu).1 ht
    by_cases hut : u = t <;> simp_all
  show List.map _ ((remaining listed g.targets).filter fun u => !same u t) = _
  rw [hothers]
  refine List.map_congr_left fun u hu => ?_
  have hu : u ∈ g.targets := (mem_remaining.1 (List.mem_of_mem_filter hu)).1
  have hdepends : (g.successorTargets u).any (same t) = true ↔
      t ∈ remaining listed (g.successorTargets u) := by
    rw [List.any_eq_true, mem_remaining, and_iff_left hlisted]
    refine ⟨fun ⟨d, hd, hsame⟩ => ?_, fun h => ⟨t, h, (eq_of_same ht ht).2 rfl⟩⟩
    have hdt := ((mem_successorTargets hg.sound.1 hu).1 hd).mem_targets.2
    exact (eq_of_same ht hdt).1 hsame ▸ hd
  show Pending.afterListing t ⟨u, g.successorTargets u, _⟩ = _
  rw [remaining_append (successorTargets_nodup u), List.length_erase]
  unfold Pending.afterListing
  simp only [hdepends]
  split <;> rfl

theorem foldl_pendingAfter (hg : g.IsBuilt) : ∀ {listed rest : List ProjectTarget},
    (listed ++ rest).Nodup → (∀ t ∈ rest, t ∈ g.targets) →
      rest.foldl pendingAfter (g.waiting listed) = g.waiting (listed ++ rest)
  | _, [], _, _ => by simp
  | listed, t :: rest, hnodup, hrest => by
    have hlisted : t ∉ listed := fun h =>
      (List.nodup_append.1 hnodup).2.2 t h t (List.mem_cons_self ..) rfl
    have hrun : rest.foldl pendingAfter (g.waiting (listed ++ [t])) =
        g.waiting (listed ++ [t] ++ rest) :=
      foldl_pendingAfter hg (by simpa using hnodup) fun u hu => hrest u (List.mem_cons_of_mem _ hu)
    rw [List.foldl_cons, pendingAfter_waiting hg (hrest t (List.mem_cons_self ..)) hlisted, hrun,
      List.append_assoc, List.singleton_append]

/-! ## One turn of the loop -/

theorem isReady_iff (hw : g.wiring.WellFormed) : g.IsReady listed t ↔
    t ∈ remaining listed g.targets ∧ remaining listed (g.successorTargets t) = [] := by
  rw [mem_remaining, remaining_eq_nil]
  refine ⟨fun h => ⟨⟨h.registered, h.unlisted⟩, fun d hd => ?_⟩, fun ⟨⟨ht, hlisted⟩, h⟩ => ?_⟩
  · exact h.unblocked d ((mem_successorTargets hw h.registered).1 hd)
  · exact ⟨ht, hlisted, fun d hd => h d ((mem_successorTargets hw ht).2 hd)⟩

/-- Whose turn it is: the least of the targets that are ready. -/
def IsNext (g : Graph) (listed : List ProjectTarget) (t : ProjectTarget) : Prop :=
  g.IsReady listed t ∧ ∀ u, g.IsReady listed u → u ≠ t → compareKeys t u = .lt

theorem isNext_of_find? (hg : g.IsBuilt) {p : Pending}
    (h : (g.waiting listed).find? (·.unlisted == 0) = some p) : g.IsNext listed p.target := by
  have hw := hg.sound.1
  unfold waiting at h
  rw [List.find?_map, Option.map_eq_some_iff] at h
  obtain ⟨t, ht, rfl⟩ := h
  obtain ⟨hzero, before, after, hsplit, hbefore⟩ := List.find?_eq_some_iff_append.1 ht
  have hinc : IncreasingBy sortKey (remaining listed g.targets) :=
    List.Pairwise.filter _ hg.targets_increasing
  rw [hsplit] at hinc
  refine ⟨(isReady_iff hw).2 ⟨by simp [hsplit], by simpa using hzero⟩, fun u hu hne => ?_⟩
  obtain ⟨hmem, hnone⟩ := (isReady_iff hw).1 hu
  rw [hsplit, List.mem_append, List.mem_cons] at hmem
  obtain hmem | rfl | hmem := hmem
  · -- those before it in the list wait for something
    have := hbefore u hmem
    simp [hnone] at this
  · exact absurd rfl hne
  · exact (List.pairwise_cons.1 (List.pairwise_append.1 hinc).2.1).1 u hmem

theorem exists_find?_waiting (hg : g.IsBuilt) (h : remaining listed g.targets ≠ []) :
    ∃ p, (g.waiting listed).find? (·.unlisted == 0) = some p := by
  obtain ⟨t, ht⟩ := List.exists_mem_of_ne_nil _ h
  obtain ⟨ht, hlisted⟩ := mem_remaining.1 ht
  obtain ⟨u, hu⟩ := hg.exists_ready ht hlisted
  obtain ⟨hu, hnone⟩ := (isReady_iff hg.sound.1).1 hu
  rw [← Option.isSome_iff_exists, List.find?_isSome]
  exact ⟨_, List.mem_map_of_mem hu, by simp [hnone]⟩

theorem unlisted_pos (hg : g.IsBuilt) (ht : g.IsReady listed t) {p : Pending}
    (hp : p ∈ g.waiting listed) (hdepends : p.dependencies.any (same t) = true) :
    0 < p.unlisted := by
  obtain ⟨u, hu, rfl⟩ := List.mem_map.1 hp
  obtain ⟨d, hd, hsame⟩ := List.any_eq_true.1 hdepends
  have hdt := ((mem_successorTargets hg.sound.1 (mem_remaining.1 hu).1).1 hd).mem_targets.2
  have hd := (eq_of_same ht.registered hdt).1 hsame ▸ hd
  exact List.length_pos_of_mem (mem_remaining.2 ⟨hd, ht.unlisted⟩)

/-! ## The whole run -/

theorem listReady_waiting (hg : g.IsBuilt) : ∀ (n : Nat) {listed : List ProjectTarget},
    listed.Nodup → (∀ t ∈ listed, t ∈ g.targets) → (remaining listed g.targets).length = n →
      (listed ++ listReady n (g.waiting listed)).Perm g.targets ∧
        ∀ xs next ys, listReady n (g.waiting listed) = xs ++ next :: ys →
          g.IsNext (listed ++ xs) next
  | 0, listed, hnodup, hlisted, hlength => by
    have hall := remaining_eq_nil.1 (List.length_eq_zero_iff.1 hlength)
    refine ⟨?_, fun xs next ys h => by simp [listReady] at h⟩
    rw [listReady, List.append_nil,
      List.perm_ext_iff_of_nodup hnodup hg.targets_increasing.nodup.of_map]
    exact fun t => ⟨hlisted t, hall t⟩
  | n + 1, listed, hnodup, hlisted, hlength => by
    -- a graph without cycles always has a target that waits for none of the others
    obtain ⟨p, hp⟩ := exists_find?_waiting hg (List.ne_nil_of_length_eq_add_one hlength)
    have hnext := isNext_of_find? hg hp
    have ⟨ht, hnew, _⟩ := hnext.1
    have hrun : listReady (n + 1) (g.waiting listed) =
        p.target :: listReady n (g.waiting (listed ++ [p.target])) := by
      rw [← pendingAfter_waiting hg ht hnew, listReady, hp]
      rfl
    have hrest : (remaining (listed ++ [p.target]) g.targets).length = n := by
      rw [remaining_append hg.targets_increasing.nodup.of_map,
        List.length_erase_of_mem (mem_remaining.2 ⟨ht, hnew⟩), hlength, Nat.add_sub_cancel]
    have hnodup' : (listed ++ [p.target]).Nodup :=
      hnodup.append (List.nodup_singleton _) (by simpa using hnew)
    obtain ⟨hperm, hturns⟩ := listReady_waiting hg n hnodup'
      (by simpa [or_imp, forall_and] using ⟨hlisted, ht⟩) hrest
    rw [hrun]
    refine ⟨by simpa using hperm, fun xs next ys h => ?_⟩
    cases xs with
    | nil =>
      obtain ⟨rfl, -⟩ := List.cons.inj h
      simpa using hnext
    | cons x xs =>
      obtain ⟨rfl, htail⟩ := List.cons.inj h
      simpa using hturns xs next ys htail

theorem find?_of_listReady : ∀ {n : Nat} {pending : List Pending} {xs ys : List ProjectTarget},
    listReady n pending = xs ++ t :: ys →
      ((xs.foldl pendingAfter pending).find? (·.unlisted == 0)).map (·.target) = some t
  | 0, _, xs, _, h => by simp [listReady] at h
  | n + 1, pending, xs, ys, h => by
    unfold listReady at h
    cases hp : pending.find? (·.unlisted == 0) with
    | none => simp [hp] at h
    | some p =>
      simp only [hp] at h
      cases xs with
      | nil =>
        obtain ⟨rfl, -⟩ := List.cons.inj h
        simp [hp]
      | cons x xs =>
        obtain ⟨rfl, htail⟩ := List.cons.inj h
        rw [List.foldl_cons]
        exact find?_of_listReady htail

end

/-- What holds as a target is listed: the loop finds it by its counter, every counter is right,
and so none that goes down is at zero. -/
structure IsTurn (g : Graph) (listed : List ProjectTarget) (next : ProjectTarget) : Prop where
  isNext : g.IsNext listed next
  found : ((listed.foldl pendingAfter g.pendingAtStart).find? (·.unlisted == 0)).map (·.target) =
    some next
  counted : listed.foldl pendingAfter g.pendingAtStart = g.waiting listed
  positive : ∀ p ∈ listed.foldl pendingAfter g.pendingAtStart,
    p.dependencies.any (same next) = true → 0 < p.unlisted
  final : ∀ t ∈ listed, ¬ g.Requires t next

/-- The build order has every target once, and each of them at its turn. -/
theorem IsBuilt.build_order {g : Graph} (hg : g.IsBuilt) :
    g.targetsInOrder.Perm g.targets ∧ (g.targetsInOrder.map sortKey).Nodup ∧
      (∀ t, t ∈ g.targetsInOrder ↔ ∃ path name, g.target? path name = some t) ∧
      ∀ listed next rest, g.targetsInOrder = listed ++ next :: rest → g.IsTurn listed next := by
  have hall : (remaining [] g.targets).length = g.targets.length := by simp [remaining]
  obtain ⟨hperm, hturns⟩ := listReady_waiting hg _ .nil (fun _ h => nomatch h) hall
  have hrun : g.targetsInOrder = listReady g.targets.length (g.waiting []) := by
    rw [waiting_nil, targetsInOrder, List.length_map]
    rfl
  rw [List.nil_append, ← hrun] at hperm
  refine ⟨hperm, (hperm.map sortKey).nodup_iff.2 hg.targets_increasing.nodup,
    fun t => hperm.mem_iff.trans mem_targets, fun listed next rest h => ?_⟩
  have hnext : g.IsNext listed next := by simpa using hturns listed next rest (hrun ▸ h)
  have hnodup : listed.Nodup := by
    have := hperm.nodup_iff.2 hg.targets_increasing.nodup.of_map
    rw [h, List.nodup_append] at this
    exact this.1
  have hcounted : listed.foldl pendingAfter g.pendingAtStart = g.waiting listed := by
    rw [← waiting_nil]
    exact foldl_pendingAfter hg hnodup fun t ht => hperm.mem_iff.1 (by simp [h, ht])
  refine ⟨hnext, ?_, hcounted, fun p hp hdepends => ?_, fun t ht hrequires => ?_⟩
  · have hsplit : listReady g.targets.length g.pendingAtStart = listed ++ next :: rest := by
      rw [← waiting_nil, ← hrun, h]
    exact find?_of_listReady hsplit
  · exact unlisted_pos hg hnext.1 (hcounted ▸ hp) hdepends
  · -- a listed target was ready at its own turn, when `next` was not listed yet
    obtain ⟨before, after, rfl⟩ := List.append_of_mem ht
    have hturn : g.IsNext before t := by
      simpa using hturns before t (after ++ next :: rest) (by simp [← hrun, h])
    exact hnext.1.unlisted (List.mem_append_left _ (hturn.1.unblocked next hrequires))

end BuildGraph.Graph

namespace BuildGraph

theorem build_order_charted :
    chartedGraph.targetsInOrder = [chartedTarget "Charts" .framework,
        chartedTarget "Core" .framework, chartedTarget "Menus" .framework,
        chartedTarget "App" .app] ∧
      chartedGraph.IsTurn [chartedTarget "Charts" .framework] (chartedTarget "Core" .framework) := by
  have horder : chartedGraph.targetsInOrder = [chartedTarget "Charts" .framework,
      chartedTarget "Core" .framework, chartedTarget "Menus" .framework,
      chartedTarget "App" .app] := by decide +kernel
  exact ⟨horder, isBuilt_charted.build_order.2.2.2 [_] _ _ horder⟩

end BuildGraph
