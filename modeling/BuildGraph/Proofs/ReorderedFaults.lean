import BuildGraph.Proofs.ChecksAgree
import BuildGraph.Proofs.Reordering

/-!
# Faults of drafts made in another order

Two builders that register the same projects and declare the same dependencies, in
whatever order, both build a graph or both have a fault of one kind. The faults are equal
but for the spelling of keys and for the node that a depth fault names: the order decides
which of several nodes at fault that is.
-/

namespace BuildGraph

/-- The same calls in some order, with each project registered once. -/
structure DraftCall.Permuted (calls calls' : List DraftCall) : Prop where
  projects : (calls.filterMap project?).Perm (calls'.filterMap project?)
  paths : ((calls.filterMap project?).map fun p => sortKey p.path).Nodup
  nodes : (calls.filterMap node?).Perm (calls'.filterMap node?)
  edges : (calls.filterMap edge?).Perm (calls'.filterMap edge?)

def DraftCall.SpelledOneWay (calls : List DraftCall) : Prop :=
  ∀ c ∈ calls, ∀ c' ∈ calls, ∀ k ∈ c.mentioned, ∀ l ∈ c'.mentioned, sortKey k = sortKey l → k = l

section
variable {workspace : Workspace} {calls calls' : List DraftCall}

namespace DraftCall

theorem Permuted.symm (h : Permuted calls calls') : Permuted calls' calls :=
  ⟨h.projects.symm, (h.projects.map _).nodup_iff.1 h.paths, h.nodes.symm, h.edges.symm⟩

theorem Permuted.mentioned (h : Permuted calls calls') {key : NodeKey}
    (hkey : ∃ c ∈ calls, key ∈ c.mentioned) : ∃ c ∈ calls', key ∈ c.mentioned :=
  mentioned_of_mem (fun p hp => ⟨p, h.projects.mem_iff.1 hp, rfl, .refl _⟩) h.nodes.subset
    h.edges.subset hkey

theorem Permuted.mentioned_iff (h : Permuted calls calls') (key : NodeKey) :
    (∃ c ∈ calls, key ∈ c.mentioned) ↔ ∃ c ∈ calls', key ∈ c.mentioned :=
  ⟨h.mentioned, h.symm.mentioned⟩

end DraftCall

namespace Draft

theorem projects_permuted (h : DraftCall.Permuted calls calls') :
    (ofCalls workspace calls).projects = (ofCalls workspace calls').projects := by
  have hpaired : Paired (· = ·) (ofCalls workspace calls).projects
      (ofCalls workspace calls').projects := by
    refine ⟨fun e he => ⟨e, ?_, rfl⟩, fun e he => ⟨e, ?_, rfl⟩⟩
    · obtain ⟨p, hp, rfl⟩ := (mem_projects h.paths).1 he
      exact (mem_projects h.symm.paths).2 ⟨p, h.projects.mem_iff.1 hp, rfl⟩
    · obtain ⟨p, hp, rfl⟩ := (mem_projects h.symm.paths).1 he
      exact (mem_projects h.paths).2 ⟨p, h.projects.mem_iff.2 hp, rfl⟩
  have hall := hpaired.forall₂ (projects_increasing workspace calls)
    (projects_increasing workspace calls') fun _ _ => congrArg sortKey
  exact List.forall₂_eq_eq_eq ▸ hall

theorem agree_permuted (h : DraftCall.Permuted calls calls')
    (hdepth : (ofCalls workspace calls).maxDepth = (ofCalls workspace calls').maxDepth) :
    (ofCalls workspace calls).Agree (ofCalls workspace calls') where
  workspace := by rw [workspace_ofCalls, workspace_ofCalls]
  projects := projects_permuted h
  maxDepth := hdepth
  wiring := agree_of_mentioned h.mentioned_iff h.edges

/-- Whatever the order of the calls, the same is built or a fault of one kind is reported,
and it is the same fault if all keys are spelled one way and no other node is at fault. -/
theorem build_permuted (h : DraftCall.Permuted calls calls')
    (hdepth : (ofCalls workspace calls).maxDepth = (ofCalls workspace calls').maxDepth) :
    let d := ofCalls workspace calls
    let d' := ofCalls workspace calls'
    SameOutcome (FaultsMatch d d')
        (fun g g' => g.workspace = g'.workspace ∧ g.projects = g'.projects ∧
          g.wiring.Agree g'.wiring) d.build d'.build ∧
      (DraftCall.SpelledOneWay calls → ∀ f f', d.build = .error f → d'.build = .error f' →
        f = f' ∨ d.Rivals f f') := by
  intro d d'
  have hagree : d.Agree d' := agree_permuted h hdepth
  have houtcome := hagree.build
  refine ⟨houtcome, fun hspelled f f' hf hf' => ?_⟩
  rw [hf, hf'] at houtcome
  cases houtcome with
  | error hmatch =>
    refine hmatch.eq_or_rivals hagree fun k l hkl => ?_
    obtain ⟨c, hc, hk⟩ := spelled_ofCalls workspace calls hkl.left
    obtain ⟨c', hc', hl⟩ := h.symm.mentioned (spelled_ofCalls workspace calls' hkl.right)
    exact hspelled c hc c' hc' k hk l hl hkl.same

end Draft

end

/-! ## Two chains that are too long -/

def forkKey (name : String) : NodeKey :=
  .ofTarget ⟨"/w"⟩ name

def forkCalls (first second : String) : List DraftCall :=
  let target (name : String) (product : Product) : Target := { name, product }
  [.limit 1,
    .register ⟨⟨"/w"⟩, "W", .localProject, [target "App" .app, target "Kit" .framework,
      target "Media" .framework, target "Core" .framework, target "Base" .framework]⟩,
    .declare (forkKey "App") (forkKey first) none,
    .declare (forkKey "App") (forkKey second) none,
    .declare (forkKey "Kit") (forkKey "Core") none,
    .declare (forkKey "Media") (forkKey "Core") none,
    .declare (forkKey "Core") (forkKey "Base") none]

def forkDraft (first second : String) : Draft :=
  .ofCalls ⟨⟨"/w"⟩, "W", []⟩ (forkCalls first second)

theorem permuted_forkCalls :
    DraftCall.Permuted (forkCalls "Kit" "Media") (forkCalls "Media" "Kit") :=
  ⟨.refl _, by decide, .refl _, .swap ..⟩

theorem build_forkDraft :
    (forkDraft "Kit" "Media").build = .error (.unsupported (.chainTooLong 2 (forkKey "Kit") 1)) ∧
      (forkDraft "Media" "Kit").build =
        .error (.unsupported (.chainTooLong 2 (forkKey "Media") 1)) := by
  have horder : (forkDraft "Kit" "Media").wiring.topologicalOrder = .ok [0, 2, 1, 3, 4] := by decide
  have horder' : (forkDraft "Media" "Kit").wiring.topologicalOrder = .ok [0, 1, 2, 3, 4] := by decide
  exact ⟨Draft.build_of_checkDepth (Draft.wellFormed_ofCalls ..) (by decide) (by decide) horder
      (by decide),
    Draft.build_of_checkDepth (Draft.wellFormed_ofCalls ..) (by decide) (by decide) horder'
      (by decide)⟩

theorem rivals_forkDraft :
    DraftCall.Permuted (forkCalls "Kit" "Media") (forkCalls "Media" "Kit") ∧
      (forkDraft "Kit" "Media").maxDepth = (forkDraft "Media" "Kit").maxDepth ∧
      DraftCall.SpelledOneWay (forkCalls "Kit" "Media") ∧
      (forkDraft "Kit" "Media").Rivals (.unsupported (.chainTooLong 2 (forkKey "Kit") 1))
        (.unsupported (.chainTooLong 2 (forkKey "Media") 1)) := by
  have hdepth : (forkDraft "Kit" "Media").maxDepth = (forkDraft "Media" "Kit").maxDepth := by decide
  have hspelled : DraftCall.SpelledOneWay (forkCalls "Kit" "Media") := by
    unfold DraftCall.SpelledOneWay
    decide
  refine ⟨permuted_forkCalls, hdepth, hspelled, ?_⟩
  have hfaults := (Draft.build_permuted permuted_forkCalls hdepth).2 hspelled _ _ build_forkDraft.1
    build_forkDraft.2
  exact hfaults.resolve_left (by decide)

/-- The fault names the framework that the app was made to depend on first. -/
theorem fault_names_first_declared :
    DraftCall.Permuted (forkCalls "Kit" "Media") (forkCalls "Media" "Kit") ∧
      (forkDraft "Kit" "Media").maxDepth = (forkDraft "Media" "Kit").maxDepth ∧
      ∃ f f', (forkDraft "Kit" "Media").build = .error f ∧
        (forkDraft "Media" "Kit").build = .error f' ∧ f.message ≠ f'.message :=
  ⟨permuted_forkCalls, by decide, _, _, build_forkDraft.1, build_forkDraft.2, by decide +kernel⟩

end BuildGraph
