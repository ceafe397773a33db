import BuildGraph.Proofs.Drafting
import BuildGraph.Proofs.TargetCycle
import BuildGraph.Proofs.Topological

/-!
# What building accepts

A draft is built exactly if it is sound: its target keys are registered, only targets
depend on targets, there are no cycles, and no route has more edges than allowed. The
fault of any other draft is one that it has, after all that is checked earlier.
-/

namespace BuildGraph

namespace Draft

/-! ## Sound drafts -/

def Registers (d : Draft) (id : TargetId) : Prop :=
  ∃ entry ∈ d.projects, sortKey entry.path = sortKey id.projectPath ∧
    ∃ t ∈ entry.project.targets, t.name = id.name

def Crosses (d : Draft) (artifact target : NodeKey) : Prop :=
  ∃ e ∈ d.wiring.edges, d.wiring.key? e.source = some artifact ∧
    d.wiring.key? e.target = some target ∧ artifact.isTarget = false ∧ target.isTarget = true

structure Sound (d : Draft) : Prop where
  registered : ∀ id, .target id ∈ d.wiring.keys → d.Registers id
  uncrossed : ∀ a b, ¬ d.Crosses a b
  acyclic : d.wiring.Acyclic
  short : ∀ a es b, d.wiring.IsRoute a es b → es.length ≤ d.maxDepth

/-- The faults of a draft. Each holds only where all that is checked earlier is right. -/
inductive Explains (d : Draft) : Fault → Prop where
  | unknownProject (id : TargetId) (mentioned : .target id ∈ d.wiring.keys)
      (missing : ∀ entry ∈ d.projects, sortKey entry.path ≠ sortKey id.projectPath) :
      Explains d (.unknownProject id.projectPath)
  | unknownTarget (id : TargetId) (mentioned : .target id ∈ d.wiring.keys)
      (entry : ProjectEntry) (registered : entry ∈ d.projects)
      (found : sortKey entry.path = sortKey id.projectPath)
      (missing : ∀ t ∈ entry.project.targets, t.name ≠ id.name) :
      Explains d (.unknownTarget id.name id.projectPath)
  | artifactDependsOnTarget (a b : NodeKey)
      (registered : ∀ id, .target id ∈ d.wiring.keys → d.Registers id)
      (crossed : d.Crosses a b) :
      Explains d (.unsupported (.artifactDependsOnTarget a b))
  | targetCycle (cycle : List TargetId)
      (registered : ∀ id, .target id ∈ d.wiring.keys → d.Registers id)
      (uncrossed : ∀ a b, ¬ d.Crosses a b)
      (genuine : d.wiring.IsTargetCycle cycle) :
      Explains d (.targetCycle cycle)
  | dependencyCycle (through : NodeKey)
      (registered : ∀ id, .target id ∈ d.wiring.keys → d.Registers id)
      (uncrossed : ∀ a b, ¬ d.Crosses a b)
      (noTargets : ¬ d.wiring.HasCycle NodeKey.isTarget)
      (artifacts : d.wiring.HasCycle fun key => !key.isTarget)
      (mentioned : through ∈ d.wiring.keys) :
      Explains d (.unsupported (.dependencyCycle through))
  | chainTooLong (node length : Nat) (start : NodeKey)
      (registered : ∀ id, .target id ∈ d.wiring.keys → d.Registers id)
      (uncrossed : ∀ a b, ¬ d.Crosses a b)
      (acyclic : d.wiring.Acyclic)
      (begins : d.wiring.key? node = some start)
      (longest : d.wiring.IsLongest node length)
      (exceeds : d.maxDepth < length) :
      Explains d (.unsupported (.chainTooLong length start d.maxDepth))

/-! ## Registered targets -/

theorem forM_except {α ε : Type} {f : α → Except ε Unit} : ∀ xs : List α,
    match xs.forM f with
    | .ok () => ∀ x ∈ xs, f x = .ok ()
    | .error e => ∃ x ∈ xs, f x = .error e
  | [] => fun _ h => nomatch h
  | x :: xs => by
    have hrest := forM_except (f := f) xs
    simp only [List.forM, bind, Except.bind]
    cases h : f x with
    | error e => exact ⟨x, List.mem_cons_self .., h⟩
    | ok u =>
      simp only
      cases hr : xs.forM f with
      | error e =>
        rw [hr] at hrest
        obtain ⟨y, hy, he⟩ := hrest
        exact ⟨y, List.mem_cons_of_mem _ hy, he⟩
      | ok u =>
        rw [hr] at hrest
        exact List.forall_mem_cons.2 ⟨h, hrest⟩

section
variable {d : Draft}

theorem target?_eq_none {p : Project} {name : String} (h : p.target? name = none) :
    ∀ t ∈ p.targets, t.name ≠ name := by
  intro t ht he
  exact List.find?_eq_none.1 h t ht (by simpa using he)

theorem checkTarget_spec (id : TargetId) (hid : .target id ∈ d.wiring.keys) :
    match d.projects.checkTarget id with
    | .ok () => d.Registers id
    | .error f => d.Explains f := by
  unfold ProjectTable.checkTarget
  cases hat : d.projects.at? id.projectPath with
  | none => exact .unknownProject id hid (ProjectTable.at?_eq_none hat)
  | some entry =>
    obtain ⟨hmem, hpath⟩ := ProjectTable.at?_eq_some hat
    cases ht : entry.project.target? id.name with
    | none => simpa only [ht] using Explains.unknownTarget id hid entry hmem hpath (target?_eq_none ht)
    | some t =>
      have hname := List.find?_some ht
      simp only [ht]
      exact ⟨entry, hmem, hpath, t, List.mem_of_find?_eq_some ht, by simpa using hname⟩

theorem mem_targetIds {id : TargetId} :
    id ∈ (sorted d.wiring.keys).filterMap NodeKey.target? ↔ .target id ∈ d.wiring.keys := by
  rw [List.mem_filterMap]
  constructor
  · rintro ⟨key, hk, ht⟩
    cases key with
    | target id' =>
      cases ht
      exact mem_sorted.1 hk
    | _ => cases ht
  · exact fun h => ⟨_, mem_sorted.2 h, rfl⟩

theorem checkTargets_spec (d : Draft) :
    match d.checkTargets with
    | .ok () => ∀ id, .target id ∈ d.wiring.keys → d.Registers id
    | .error f => d.Explains f := by
  have hall := forM_except (f := d.projects.checkTarget)
    ((sorted d.wiring.keys).filterMap NodeKey.target?)
  unfold checkTargets
  cases h : ((sorted d.wiring.keys).filterMap NodeKey.target?).forM d.projects.checkTarget with
  | ok u =>
    rw [h] at hall
    intro id hid
    have hs := checkTarget_spec id hid
    rwa [hall id (mem_targetIds.2 hid)] at hs
  | error f =>
    rw [h] at hall
    obtain ⟨id, hid, he⟩ := hall
    have hs := checkTarget_spec id (mem_targetIds.1 hid)
    rwa [he] at hs

/-! ## Edges from artifacts -/

theorem mem_edgeKeys {w : Wiring} {a b : NodeKey} : (a, b) ∈ w.edgeKeys ↔
    ∃ e ∈ w.edges, w.key? e.source = some a ∧ w.key? e.target = some b := by
  simp [Wiring.edgeKeys, Option.bind_eq_some_iff]

theorem mem_offending {a b : NodeKey} :
    (a, b) ∈ d.wiring.edgeKeys.filter (fun (a, b) => !a.isTarget && b.isTarget) ↔
      d.Crosses a b := by
  rw [List.mem_filter, mem_edgeKeys]
  simp only [Bool.and_eq_true, Bool.not_eq_true']
  constructor
  · rintro ⟨⟨e, he, ha, hb⟩, hcross⟩
    exact ⟨e, he, ha, hb, hcross⟩
  · rintro ⟨e, he, ha, hb, hcross⟩
    exact ⟨⟨e, he, ha, hb⟩, hcross⟩

theorem checkArtifactEdges_spec
    (hreg : ∀ id, .target id ∈ d.wiring.keys → d.Registers id) :
    match d.checkArtifactEdges with
    | .ok () => ∀ a b, ¬ d.Crosses a b
    | .error f => d.Explains f := by
  unfold checkArtifactEdges
  generalize hoff : d.wiring.edgeKeys.filter (fun (a, b) => !a.isTarget && b.isTarget) = offending
  cases hhead : (sorted offending).head? with
  | none =>
    simp only [hhead]
    intro a b hcross
    rw [List.head?_eq_none_iff] at hhead
    have hm : (a, b) ∈ sorted offending := mem_sorted.2 (hoff ▸ mem_offending.2 hcross)
    rw [hhead] at hm
    cases hm
  | some ab =>
    obtain ⟨a, b⟩ := ab
    have hm : (a, b) ∈ offending := mem_sorted.1 (List.mem_of_head? hhead)
    simp only [hhead]
    exact .artifactDependsOnTarget a b hreg (mem_offending.1 (hoff ▸ hm))

/-! ## Cycles -/

theorem checkTargetCycles_spec
    (hreg : ∀ id, .target id ∈ d.wiring.keys → d.Registers id)
    (hcross : ∀ a b, ¬ d.Crosses a b) :
    match d.checkTargetCycles with
    | .ok () => ¬ d.wiring.HasCycle NodeKey.isTarget
    | .error f => d.Explains f := by
  have hs := d.wiring.targetCycle?_spec
  unfold checkTargetCycles
  cases h : d.wiring.targetCycle? with
  | none => simpa only [h] using hs
  | some cycle =>
    rw [h] at hs
    exact .targetCycle cycle hreg hcross hs

theorem isTarget_source (hcross : ∀ a b, ¬ d.Crosses a b) (hw : d.wiring.WellFormed) {e : Edge}
    (he : e ∈ d.wiring.edges) (ht : d.wiring.holds NodeKey.isTarget e.target = true) :
    d.wiring.holds NodeKey.isTarget e.source = true := by
  obtain ⟨b, hb, hbt⟩ := Wiring.holds_iff.1 ht
  obtain ⟨a, ha⟩ := Wiring.exists_key? (hw.source_lt e he)
  refine Wiring.holds_iff.2 ⟨a, ha, ?_⟩
  by_contra hat
  exact hcross a b ⟨e, he, ha, hb, by simpa using hat, hbt⟩

theorem isTarget_route (hcross : ∀ a b, ¬ d.Crosses a b) (hw : d.wiring.WellFormed)
    {es : List Edge} : ∀ {a b : Nat}, d.wiring.IsRoute a es b →
      d.wiring.holds NodeKey.isTarget b = true →
        ∀ e ∈ es, d.wiring.holds NodeKey.isTarget e.source = true := by
  induction es with
  | nil => exact fun _ _ _ h => nomatch h
  | cons e es ih =>
    rintro _ b ⟨he, rfl, hes⟩ hb
    have hrest := ih hes hb
    have htarget : d.wiring.holds NodeKey.isTarget e.target = true := by
      cases es with
      | nil => exact (show e.target = b from hes) ▸ hb
      | cons f fs => exact hes.2.1 ▸ hrest f (List.mem_cons_self ..)
    exact List.forall_mem_cons.2 ⟨isTarget_source hcross hw he htarget, hrest⟩

theorem hasCycle_artifact (hcross : ∀ a b, ¬ d.Crosses a b) (hw : d.wiring.WellFormed)
    (htargets : ¬ d.wiring.HasCycle NodeKey.isTarget) (hcyclic : ¬ d.wiring.Acyclic) :
    d.wiring.HasCycle fun key => !key.isTarget := by
  simp only [Wiring.Acyclic, not_forall] at hcyclic
  obtain ⟨a, es, hes, hne⟩ := hcyclic
  refine ⟨a, es, hne, hes, fun e he => ?_⟩
  by_contra hkind
  -- a target on the route would make all before it targets, those around the cycle too
  obtain ⟨key, hkey⟩ := Wiring.exists_key? (hw.source_lt e (hes.mem_edges e he))
  have htarget : d.wiring.holds NodeKey.isTarget e.source = true := by
    rw [Wiring.holds_iff] at hkind ⊢
    refine ⟨key, hkey, ?_⟩
    by_contra hk
    exact hkind ⟨key, hkey, by simpa using hk⟩
  obtain ⟨fs, gs, rfl⟩ := List.append_of_mem he
  obtain ⟨c, hfs, hgs⟩ := Wiring.isRoute_append.1 hes
  have hc : c = e.source := hgs.2.1.symm
  have hround : d.wiring.IsRoute c (e :: gs ++ fs) c := Wiring.isRoute_append.2 ⟨a, hgs, hfs⟩
  refine htargets ⟨c, e :: gs ++ fs, by simp, hround, ?_⟩
  exact isTarget_route hcross hw hround (hc ▸ htarget)

theorem not_acyclic_of_hasCycle {w : Wiring} {p : NodeKey → Bool} (h : w.HasCycle p) :
    ¬ w.Acyclic := by
  obtain ⟨a, es, hne, hes, -⟩ := h
  exact fun hac => hne (hac a es hes)

/-! ## Depth -/

theorem keyed_eq {node : Nat} {key : NodeKey} (h : d.wiring.key? node = some key)
    (reason : NodeKey → UnsupportedReason) : d.keyed node reason = .unsupported (reason key) := by
  rw [keyed, h]
  rfl

theorem checkDepth_spec (hw : d.wiring.WellFormed) :
    match d.checkDepth with
    | .ok () => d.wiring.Acyclic ∧ ∀ a es b, d.wiring.IsRoute a es b → es.length ≤ d.maxDepth
    | .error f =>
      (¬ d.wiring.Acyclic ∧ ∃ key ∈ d.wiring.keys, f = .unsupported (.dependencyCycle key)) ∨
        (d.wiring.Acyclic ∧ ∃ node length start, d.wiring.key? node = some start ∧
          d.wiring.IsLongest node length ∧ d.maxDepth < length ∧
          f = .unsupported (.chainTooLong length start d.maxDepth)) := by
  have horder := Wiring.topologicalOrder_spec hw
  unfold checkDepth
  cases ho : d.wiring.topologicalOrder with
  | error node =>
    rw [ho] at horder
    obtain ⟨hcyclic, hlt⟩ := horder
    obtain ⟨key, hkey⟩ := Wiring.exists_key? hlt
    simp only [keyed_eq hkey]
    exact .inl ⟨hcyclic, key, Wiring.mem_keys_of_key? hkey, rfl⟩
  | ok order =>
    rw [ho] at horder
    obtain ⟨hac, hsettled, hall⟩ := horder
    have hstart : CycleSearch.Settled d.wiring.successors id (order.reverse.reverse ++ []) := by
      simpa using hsettled
    -- read backwards, the order has every node after its dependencies
    have hchains := @Wiring.checkChains_spec d.wiring d.maxDepth order.reverse [] [] hstart
      (fun _ h => nomatch h) (fun _ h => nomatch h)
    cases hc : d.wiring.checkChains d.maxDepth [] order.reverse with
    | error found =>
      obtain ⟨node, length⟩ := found
      rw [hc] at hchains
      obtain ⟨-, hlong, hover⟩ := hchains
      obtain ⟨es, b, hes, hlen⟩ := hlong.1
      have hlt : node < d.wiring.size := hes.lt_size hw (by omega)
      obtain ⟨key, hkey⟩ := Wiring.exists_key? hlt
      simp only [hc, keyed_eq hkey]
      exact .inr ⟨hac, node, length, key, hkey, hlong, hover, rfl⟩
    | ok u =>
      rw [hc] at hchains
      simp only [hc]
      refine ⟨hac, fun a es b hes => ?_⟩
      by_cases hlong : 0 < es.length
      · have ha : a ∈ order.reverse ++ [] := by simpa using hall a (hes.lt_size hw hlong)
        exact hchains a ha es b hes
      · omega

/-! ## Building -/

theorem Explains.not_sound (hp : IncreasingBy sortKey d.projects) {f : Fault}
    (h : d.Explains f) : ¬ d.Sound := by
  intro hs
  cases h with
  | unknownProject id hid hmissing =>
    obtain ⟨entry, hentry, hpath, -⟩ := hs.registered id hid
    exact hmissing entry hentry hpath
  | unknownTarget id hid entry hentry hpath hmissing =>
    obtain ⟨entry', hentry', hpath', t, ht, hname⟩ := hs.registered id hid
    have hsame : entry' = entry :=
      List.inj_on_of_nodup_map hp.nodup hentry' hentry (hpath'.trans hpath.symm)
    exact hmissing t (hsame ▸ ht) hname
  | artifactDependsOnTarget a b _ hcrossed => exact hs.uncrossed a b hcrossed
  | targetCycle cycle _ _ hgenuine => exact not_acyclic_of_hasCycle hgenuine.hasCycle hs.acyclic
  | dependencyCycle _ _ _ _ hcycle _ => exact not_acyclic_of_hasCycle hcycle hs.acyclic
  | chainTooLong node length start _ _ _ _ hlong hover =>
    obtain ⟨es, b, hes, hlen⟩ := hlong.1
    have := hs.short node es b hes
    omega

theorem build_spec (hw : d.wiring.WellFormed) :
    match d.build with
    | .ok g => d.Sound ∧ g = ⟨d.workspace, d.projects, d.wiring⟩
    | .error f => d.Explains f := by
  have h₁ := d.checkTargets_spec
  simp only [build, bind, Except.bind, pure, Except.pure]
  cases ht : d.checkTargets with
  | error f => simpa only [ht] using h₁
  | ok u =>
    rw [ht] at h₁
    have h₂ := checkArtifactEdges_spec h₁
    cases ha : d.checkArtifactEdges with
    | error f => simpa only [ha] using h₂
    | ok u =>
      rw [ha] at h₂
      have h₃ := checkTargetCycles_spec h₁ h₂
      cases hc : d.checkTargetCycles with
      | error f => simpa only [hc] using h₃
      | ok u =>
        rw [hc] at h₃
        have h₄ := checkDepth_spec hw
        cases hd : d.checkDepth with
        | error f =>
          rw [hd] at h₄
          simp only
          rcases h₄ with ⟨hcyclic, key, hkey, rfl⟩ | ⟨hac, node, length, start, hstart, hlong, hover, rfl⟩
          · exact .dependencyCycle key h₁ h₂ h₃ (hasCycle_artifact h₂ hw h₃ hcyclic) hkey
          · exact .chainTooLong node length start h₁ h₂ hac hstart hlong hover
        | ok u =>
          rw [hd] at h₄
          exact ⟨⟨h₁, h₂, h₄.1, h₄.2⟩, rfl⟩

theorem sound_of_build {workspace : Workspace} {calls : List DraftCall} {g : Graph}
    (h : (ofCalls workspace calls).build = .ok g) : (ofCalls workspace calls).Sound ∧
      g = ⟨(ofCalls workspace calls).workspace, (ofCalls workspace calls).projects,
        (ofCalls workspace calls).wiring⟩ := by
  have hspec := build_spec (wellFormed_ofCalls workspace calls)
  rwa [h] at hspec

theorem checkTargetCycles_of_acyclic (hac : d.wiring.Acyclic) :
    d.checkTargetCycles = .ok () := by
  have hs := d.wiring.targetCycle?_spec
  unfold checkTargetCycles
  cases h : d.wiring.targetCycle? with
  | none => rfl
  | some cycle =>
    rw [h] at hs
    exact absurd hac (not_acyclic_of_hasCycle hs.hasCycle)

theorem build_of_checks (hw : d.wiring.WellFormed) (htargets : d.checkTargets = .ok ())
    (hedges : d.checkArtifactEdges = .ok ()) (hdepth : d.checkDepth = .ok ()) :
    d.build = .ok ⟨d.workspace, d.projects, d.wiring⟩ := by
  have hac := checkDepth_spec hw
  rw [hdepth] at hac
  simp only [build, bind, Except.bind, pure, Except.pure, htargets, hedges,
    checkTargetCycles_of_acyclic hac.1, hdepth]

theorem build_of_checkDepth (hw : d.wiring.WellFormed) (htargets : d.checkTargets = .ok ())
    (hedges : d.checkArtifactEdges = .ok ()) {order : List Nat}
    (horder : d.wiring.topologicalOrder = .ok order) {f : Fault} (hdepth : d.checkDepth = .error f) :
    d.build = .error f := by
  have hac := Wiring.topologicalOrder_spec hw
  rw [horder] at hac
  simp only [build, bind, Except.bind, htargets, hedges, checkTargetCycles_of_acyclic hac.1, hdepth]

theorem build_of_targetCycle {cycle : List TargetId}
    (htargets : d.checkTargets = .ok ()) (hedges : d.checkArtifactEdges = .ok ())
    (hcycle : d.wiring.targetCycle? = some cycle) : d.build = .error (.targetCycle cycle) := by
  simp only [build, bind, Except.bind, htargets, hedges, checkTargetCycles, hcycle]

end

theorem isBuilt_of_checks {workspace : Workspace} {calls : List DraftCall}
    (htargets : (ofCalls workspace calls).checkTargets = .ok ())
    (hedges : (ofCalls workspace calls).checkArtifactEdges = .ok ())
    (hdepth : (ofCalls workspace calls).checkDepth = .ok ()) :
    let d := ofCalls workspace calls
    Graph.IsBuilt ⟨d.workspace, d.projects, d.wiring⟩ :=
  ⟨workspace, calls, build_of_checks (wellFormed_ofCalls ..) htargets hedges hdepth⟩

/-- After any calls the draft is built exactly if it is sound, and otherwise the fault
reported is one that it has. -/
theorem build_ofCalls (workspace : Workspace) (calls : List DraftCall) :
    let d := ofCalls workspace calls
    (d.build = .ok ⟨workspace, d.projects, d.wiring⟩ ↔ d.Sound) ∧
      (d.Sound ∨ ∃ f, d.build = .error f ∧ d.Explains f) := by
  intro d
  have hs := build_spec (wellFormed_ofCalls workspace calls)
  cases hb : d.build with
  | ok g =>
    rw [hb] at hs
    obtain ⟨hsound, rfl⟩ := hs
    exact ⟨iff_of_true (by rw [workspace_ofCalls]) hsound, .inl hsound⟩
  | error f =>
    rw [hb] at hs
    have hnot := hs.not_sound (projects_increasing workspace calls)
    exact ⟨iff_of_false (fun h => nomatch h) hnot, .inr ⟨f, rfl, hs⟩⟩

end Draft

end BuildGraph
