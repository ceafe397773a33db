import BuildGraph.Proofs.AnswersAgree

/-!
# Drafts made in another order

Two builders that register the same projects and declare the same dependencies, in
whatever order, build graphs that agree. The order decides about the numbers of the
nodes and about the spelling of their keys, and both can be seen in answers: where
several keys stand for one artifact, the reference takes what it does not merge from the
key that came first.
-/

namespace BuildGraph

structure Project.Reordered (p q : Project) : Prop where
  path : p.path = q.path
  name : p.name = q.name
  origin : p.origin = q.origin
  targets : p.targets.Perm q.targets

/-- The same calls in some order. Each project is registered once and has each target
name once. -/
structure DraftCall.Reordered (calls calls' : List DraftCall) : Prop where
  projects : ∃ ps, (calls.filterMap project?).Perm ps ∧
    List.Forall₂ Project.Reordered ps (calls'.filterMap project?)
  paths : ((calls.filterMap project?).map fun p => sortKey p.path).Nodup
  names : ∀ p ∈ calls.filterMap project?, (p.targets.map (·.name)).Nodup
  nodes : (calls.filterMap node?).Perm (calls'.filterMap node?)
  edges : (calls.filterMap edge?).Perm (calls'.filterMap edge?)

namespace DraftCall

section
variable {calls calls' : List DraftCall}

/-! ## What calls contain -/

theorem mem_filterMap_iff {β : Type} {f : DraftCall → Option β} {x : β} {call : DraftCall}
    (hf : ∀ c, f c = some x ↔ c = call) : x ∈ calls.filterMap f ↔ call ∈ calls := by
  simp only [List.mem_filterMap, hf, exists_eq_right]

theorem mem_registered {p : Project} : p ∈ calls.filterMap project? ↔ .register p ∈ calls := by
  apply mem_filterMap_iff
  intro c
  cases c <;> simp [project?]

theorem mem_interned {key : NodeKey} : key ∈ calls.filterMap node? ↔ .intern key ∈ calls := by
  apply mem_filterMap_iff
  intro c
  cases c <;> simp [node?]

theorem mem_declared {a b : NodeKey} {condition : Option Condition} :
    (a, b, condition) ∈ calls.filterMap edge? ↔ .declare a b condition ∈ calls := by
  apply mem_filterMap_iff
  intro c
  cases c <;> simp [edge?]

theorem Reordered.paired (h : Reordered calls calls') :
    Paired Project.Reordered (calls.filterMap project?) (calls'.filterMap project?) := by
  obtain ⟨ps, hperm, hall⟩ := h.projects
  exact (Paired.of_forall₂ hall).perm_left hperm

theorem Reordered.paths' (h : Reordered calls calls') :
    ((calls'.filterMap project?).map fun p => sortKey p.path).Nodup := by
  obtain ⟨ps, hperm, hall⟩ := h.projects
  have hpaths : ps.map (fun p => sortKey p.path) =
      (calls'.filterMap project?).map fun p => sortKey p.path :=
    forall₂_iff_map_eq.1 (hall.imp fun _ _ hpq => congrArg sortKey hpq.path)
  rw [← hpaths]
  exact (hperm.map _).nodup_iff.1 h.paths

/-! ## Mentioned keys -/

theorem mentioned_of_mem (hprojects : ∀ p ∈ calls.filterMap project?,
      ∃ q ∈ calls'.filterMap project?, p.path = q.path ∧ p.targets.Perm q.targets)
    (hnodes : calls.filterMap node? ⊆ calls'.filterMap node?)
    (hedges : calls.filterMap edge? ⊆ calls'.filterMap edge?) {key : NodeKey}
    (hkey : ∃ c ∈ calls, key ∈ c.mentioned) : ∃ c ∈ calls', key ∈ c.mentioned := by
  obtain ⟨c, hc, hkey⟩ := hkey
  cases c with
  | limit n => simp [mentioned] at hkey
  | register p =>
    obtain ⟨q, hq, hpath, htargets⟩ := hprojects p (mem_registered.2 hc)
    refine ⟨.register q, mem_registered.1 hq, ?_⟩
    rw [mentioned, hpath] at hkey
    exact (htargets.map _).mem_iff.1 hkey
  | intern key => exact ⟨_, mem_interned.1 (hnodes (mem_interned.2 hc)), hkey⟩
  | declare a b condition => exact ⟨_, mem_declared.1 (hedges (mem_declared.2 hc)), hkey⟩

theorem Reordered.mentioned_iff (h : Reordered calls calls') (key : NodeKey) :
    (∃ c ∈ calls, key ∈ c.mentioned) ↔ ∃ c ∈ calls', key ∈ c.mentioned := by
  constructor
  · apply mentioned_of_mem _ h.nodes.subset h.edges.subset
    intro p hp
    obtain ⟨q, hq, hpq⟩ := h.paired.forth p hp
    exact ⟨q, hq, hpq.path, hpq.targets⟩
  · apply mentioned_of_mem _ h.nodes.symm.subset h.edges.symm.subset
    intro q hq
    obtain ⟨p, hp, hpq⟩ := h.paired.back q hq
    exact ⟨p, hp, hpq.path.symm, hpq.targets.symm⟩

theorem exists_mentioned_iff {k : SortKey} : (∃ c ∈ calls, k ∈ c.mentioned.map sortKey) ↔
    ∃ key, (∃ c ∈ calls, key ∈ c.mentioned) ∧ sortKey key = k := by
  simp only [List.mem_map]
  constructor
  · rintro ⟨c, hc, key, hkey, rfl⟩
    exact ⟨key, ⟨c, hc, hkey⟩, rfl⟩
  · rintro ⟨key, ⟨c, hc, hkey⟩, rfl⟩
    exact ⟨c, hc, key, hkey, rfl⟩

end

end DraftCall

namespace Draft

section
variable {workspace : Workspace} {calls calls' : List DraftCall}

/-! ## What is built -/

theorem agree_of_mentioned
    (hmentioned : ∀ key, (∃ c ∈ calls, key ∈ c.mentioned) ↔ ∃ c ∈ calls', key ∈ c.mentioned)
    (hedges : (calls.filterMap DraftCall.edge?).Perm (calls'.filterMap DraftCall.edge?)) :
    (ofCalls workspace calls).wiring.Agree (ofCalls workspace calls').wiring := by
  refine ⟨wellFormed_ofCalls .., wellFormed_ofCalls .., fun k => ?_, fun x k l => ?_⟩
  · simp only [mem_keys_ofCalls, DraftCall.exists_mentioned_iff, hmentioned]
  · rw [depends_ofCalls, depends_ofCalls]
    simp only [← DraftCall.mem_declared, hedges.mem_iff]

theorem agree_wiring (h : DraftCall.Reordered calls calls') :
    (ofCalls workspace calls).wiring.Agree (ofCalls workspace calls').wiring :=
  agree_of_mentioned h.mentioned_iff h.edges

theorem mem_projects (hpaths : ((calls.filterMap DraftCall.project?).map fun p => sortKey p.path).Nodup)
    {e : ProjectEntry} : e ∈ (ofCalls workspace calls).projects ↔
      ∃ p ∈ calls.filterMap DraftCall.project?, ProjectEntry.ofProject p = e := by
  rw [projects_ofCalls, mem_collectBy_of_nodup keepsKey_replaceProject, List.mem_map]
  rw [List.map_map]
  exact hpaths

theorem agree_projects (h : DraftCall.Reordered calls calls') :
    List.Forall₂ ProjectEntry.Agree (ofCalls workspace calls).projects
      (ofCalls workspace calls').projects := by
  have hagree {p q : Project} (hp : p ∈ calls.filterMap DraftCall.project?) (hpq : p.Reordered q) :
      (ProjectEntry.ofProject p).Agree (ProjectEntry.ofProject q) := by
    refine ⟨hpq.path, ?_, hpq.targets, h.names p hp⟩
    simp only [ProjectEntry.ofProject, Project.isExternal, hpq.origin]
  apply Paired.forall₂ (projects_increasing workspace calls) (projects_increasing workspace calls')
  · intro e f hef
    exact congrArg (fun path : Path => sortKey path) hef.path
  constructor
  · intro e he
    obtain ⟨p, hp, rfl⟩ := (mem_projects h.paths).1 he
    obtain ⟨q, hq, hpq⟩ := h.paired.forth p hp
    exact ⟨_, (mem_projects h.paths').2 ⟨q, hq, rfl⟩, hagree hp hpq⟩
  · intro f hf
    obtain ⟨q, hq, rfl⟩ := (mem_projects h.paths').1 hf
    obtain ⟨p, hp, hpq⟩ := h.paired.back q hq
    exact ⟨_, (mem_projects h.paths).2 ⟨p, hp, rfl⟩, hagree hp hpq⟩

theorem agree_built (h : DraftCall.Reordered calls calls') {g g' : Graph}
    (hg : (ofCalls workspace calls).build = .ok g)
    (hg' : (ofCalls workspace calls').build = .ok g') : g.Agree g' := by
  obtain ⟨-, heq⟩ := sound_of_build hg
  obtain ⟨-, heq'⟩ := sound_of_build hg'
  refine ⟨⟨_, _, hg⟩, ⟨_, _, hg'⟩, ?_, ?_⟩
  · rw [heq, heq']
    exact agree_wiring h
  · rw [heq, heq']
    exact agree_projects h

end

end Draft

/-! ## Answers -/

structure Consumer.SameAnswers (c d : Consumer) : Prop where
  linked : c.linked.AgreeByFirst d.linked c.linkedParts d.linkedParts
  embedded : c.embedded.AgreeByFirst d.embedded c.embeddedParts d.embeddedParts
  copied : c.copied.AgreeByFirst d.copied c.copiedParts d.copiedParts
  bundles : c.bundles.AgreeByFirst d.bundles c.bundleParts d.bundleParts
  searchable : c.searchable.AgreeByFirst d.searchable c.searchableParts d.searchableParts
  libraryDirectories : c.libraryDirectories.map sortKey = d.libraryDirectories.map sortKey
  moduleMapDirectories : c.moduleMapDirectories.map sortKey = d.moduleMapDirectories.map sortKey
  headerDirectories : c.headerDirectories.map sortKey = d.headerDirectories.map sortKey
  runtimeDirectories : c.runtimeDirectories.map sortKey = d.runtimeDirectories.map sortKey
  plugins : c.plugins = d.plugins ↔ (∀ s ∈ c.executableSpecifiers, s ∈ d.plugins) ∧
    ∀ s ∈ d.executableSpecifiers, s ∈ c.plugins

theorem Consumer.Agree.sameAnswers {c d : Consumer} (h : c.Agree d) : c.SameAnswers d := by
  have hc := h.graph.built
  have hd := h.graph.built'
  exact
    { linked := (collects_linked hc).agreeByFirst (collects_linked hd)
        (h.contributions h.linkedNodes)
      embedded := (collects_embedded hc).agreeByFirst (collects_embedded hd) h.embeddedParts
      copied := (collects_copied hc).agreeByFirst (collects_copied hd) h.copiedParts
      bundles := (collects_bundles hc).agreeByFirst (collects_bundles hd) h.bundleParts
      searchable := (collects_searchable hc).agreeByFirst (collects_searchable hd) h.searchableParts
      libraryDirectories := h.libraryDirectories
      moduleMapDirectories := h.moduleMapDirectories
      headerDirectories := h.headerDirectories
      runtimeDirectories := h.runtimeDirectories
      plugins := h.plugins_eq_iff }

/-- Whatever the order of the calls, the same targets are there, in one build order. Their
answers list the same references under the same conditions, with the same statuses, and
are equal exactly if what the first parts keep is. -/
theorem Draft.answers_of_reordered {workspace : Workspace} {calls calls' : List DraftCall}
    (h : DraftCall.Reordered calls calls') {g g' : Graph}
    (hg : (ofCalls workspace calls).build = .ok g)
    (hg' : (ofCalls workspace calls').build = .ok g') :
    g.targetsInOrder.map (·.view) = g'.targetsInOrder.map (·.view) ∧
      ∀ path name, Option.Rel Consumer.SameAnswers (g.consumer? path name)
        (g'.consumer? path name) := by
  have hagree := agree_built h hg hg'
  refine ⟨hagree.targetsInOrder_view, fun path name => ?_⟩
  have hconsumers := hagree.consumer? (rfl : sortKey path = sortKey path) name
  generalize g.consumer? path name = x at hconsumers
  generalize g'.consumer? path name = y at hconsumers
  cases hconsumers with
  | none => exact .none
  | some hcd => exact .some hcd.sameAnswers

/-! ## One library with two header directories -/

def headerCalls (first second : Path) : List DraftCall :=
  let app : NodeKey := .ofTarget ⟨"/w"⟩ "App"
  let library (publicHeaders : Path) : NodeKey :=
    .prebuilt ⟨⟨"/z/libz.dylib"⟩, ⟨"/z/libz.dylib"⟩, .dynamic, .empty, none, [],
      .library publicHeaders none, .required, false⟩
  [.register ⟨⟨"/w"⟩, "W", .localProject, [{ name := "App", product := .app }]⟩,
    .declare app (library first) none, .declare app (library second) none]

def headerDraft (first second : Path) : Draft :=
  .ofCalls ⟨⟨"/w"⟩, "W", []⟩ (headerCalls first second)

def headerGraph (first second : Path) : Graph :=
  ⟨(headerDraft first second).workspace, (headerDraft first second).projects,
    (headerDraft first second).wiring⟩

theorem reordered_headerCalls :
    DraftCall.Reordered (headerCalls ⟨"/a"⟩ ⟨"/b"⟩) (headerCalls ⟨"/b"⟩ ⟨"/a"⟩) :=
  ⟨⟨_, .refl _, .cons ⟨rfl, rfl, rfl, .refl _⟩ .nil⟩, by decide, by decide, .refl _, .swap ..⟩

theorem build_headerDraft :
    (headerDraft ⟨"/a"⟩ ⟨"/b"⟩).build = .ok (headerGraph ⟨"/a"⟩ ⟨"/b"⟩) ∧
      (headerDraft ⟨"/b"⟩ ⟨"/a"⟩).build = .ok (headerGraph ⟨"/b"⟩ ⟨"/a"⟩) :=
  ⟨Draft.build_of_checks (Draft.wellFormed_ofCalls ..) (by decide) (by decide) (by decide),
    Draft.build_of_checks (Draft.wellFormed_ofCalls ..) (by decide) (by decide) (by decide)⟩

theorem sameAnswers_headerGraph :
    let g := headerGraph ⟨"/a"⟩ ⟨"/b"⟩
    let g' := headerGraph ⟨"/b"⟩ ⟨"/a"⟩
    DraftCall.Reordered (headerCalls ⟨"/a"⟩ ⟨"/b"⟩) (headerCalls ⟨"/b"⟩ ⟨"/a"⟩) ∧
      (headerDraft ⟨"/a"⟩ ⟨"/b"⟩).build = .ok g ∧ (headerDraft ⟨"/b"⟩ ⟨"/a"⟩).build = .ok g' ∧
      Option.Rel Consumer.SameAnswers (g.consumer? ⟨"/w"⟩ "App") (g'.consumer? ⟨"/w"⟩ "App") :=
  ⟨reordered_headerCalls, build_headerDraft.1, build_headerDraft.2,
    (Draft.answers_of_reordered reordered_headerCalls build_headerDraft.1
      build_headerDraft.2).2 ⟨"/w"⟩ "App"⟩

/-- The headers in the answer are those of the key that came first. -/
theorem linked_headerGraph :
    let g := headerGraph ⟨"/a"⟩ ⟨"/b"⟩
    let g' := headerGraph ⟨"/b"⟩ ⟨"/a"⟩
    let linked (g : Graph) : List SortKey :=
      ((g.consumer? ⟨"/w"⟩ "App").map fun c => c.linked.toList.map sortKey).getD []
    DraftCall.Reordered (headerCalls ⟨"/a"⟩ ⟨"/b"⟩) (headerCalls ⟨"/b"⟩ ⟨"/a"⟩) ∧
      (headerDraft ⟨"/a"⟩ ⟨"/b"⟩).build = .ok g ∧ (headerDraft ⟨"/b"⟩ ⟨"/a"⟩).build = .ok g' ∧
      (g.consumer? ⟨"/w"⟩ "App").isSome = true ∧ (g'.consumer? ⟨"/w"⟩ "App").isSome = true ∧
      linked g ≠ linked g' :=
  ⟨reordered_headerCalls, build_headerDraft.1, build_headerDraft.2, by decide +kernel,
    by decide +kernel, by decide +kernel⟩

end BuildGraph
