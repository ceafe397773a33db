import BuildGraph.Proofs.Assembled
import BuildGraph.Proofs.DeclaredCycles
import BuildGraph.Proofs.TargetNodes

/-!
# Registered targets

A target is looked up in two places: the checks and the search for declared cycles take
the first target of a name, and the graph takes the last one, as a registry keyed by name
does. So both find a target under the same names, and the same target where the project
lists the name once.
-/

namespace BuildGraph

/-! ## Two lookups in a project -/

namespace Project

variable {p : Project} {name : String}

def targetsNamed (p : Project) (name : String) : List Target :=
  p.targets.filter fun t => t.name == name

def targetsByName (p : Project) : List Target :=
  collectBy (fun t => sortKey t.name) keepLast p.targets

theorem target?_eq_head? : p.target? name = (p.targetsNamed name).head? :=
  List.head?_filter.symm

theorem lastTarget?_eq_getLast? : p.lastTarget? name = (p.targetsNamed name).getLast? := by
  rw [lastTarget?, targetsNamed, List.getLast?_eq_head?_reverse, ← List.filter_reverse,
    List.head?_filter]

theorem findKey_targetsByName :
    findKey (fun t => sortKey t.name) p.targetsByName (sortKey name) = p.lastTarget? name := by
  have hnamed : (p.targets.filter fun t => sortKey t.name == sortKey name) = p.targetsNamed name := by
    refine List.filter_congr fun t _ => ?_
    rw [Bool.eq_iff_iff, beq_iff_eq, beq_iff_eq]
    exact sortKey_string
  rw [targetsByName, findKey_collectBy_keepLast, hnamed, lastTarget?_eq_getLast?]

theorem lastTarget?_isSome : (p.lastTarget? name).isSome = (p.target? name).isSome := by
  rw [target?_eq_head?, lastTarget?_eq_getLast?]
  cases p.targetsNamed name <;> simp

theorem target?_eq_lastTarget? (h : (p.targetsNamed name).length ≤ 1) :
    p.target? name = p.lastTarget? name := by
  rw [target?_eq_head?, lastTarget?_eq_getLast?]
  rcases hnamed : p.targetsNamed name with _ | ⟨t, _ | ⟨u, ts⟩⟩
  · rfl
  · rfl
  · simp [hnamed] at h

end Project

/-! ## Projects of a graph -/

theorem Draft.exists_register {workspace : Workspace} {calls : List DraftCall}
    {entry : ProjectEntry} (h : entry ∈ (ofCalls workspace calls).projects) :
    ∃ p, .register p ∈ calls ∧ entry.project = p ∧ sortKey entry.path = sortKey p.path := by
  rw [projects_ofCalls] at h
  refine forall_mem_collectBy (P := fun entry => ∃ p, .register p ∈ calls ∧ entry.project = p ∧
    sortKey entry.path = sortKey p.path) ?_ ?_ entry h
  · intro old new hsame _ ⟨p, hp, hproject, hpath⟩
    have hsame : sortKey old.path = sortKey new.path := hsame
    exact ⟨p, hp, hproject, hsame.trans hpath⟩
  · intro entry hentry
    obtain ⟨p, hp, rfl⟩ := List.mem_map.1 hentry
    obtain ⟨c, hc, hcp⟩ := List.mem_filterMap.1 hp
    cases c with
    | register q =>
      cases hcp
      exact ⟨_, hc, rfl, rfl⟩
    | _ => cases hcp

namespace Graph

section
variable {g : Graph} {path : Path} {name : String} {t : ProjectTarget}

theorem project?_eq_some {p : Project} :
    g.project? path = some p ↔ ∃ entry, g.projects.at? path = some entry ∧ entry.project = p := by
  rw [project?, Option.map_eq_some_iff]

theorem target?_eq_some_iff : g.target? path name = some t ↔
    ∃ entry, g.projects.at? path = some entry ∧ entry.project.lastTarget? name = some t.target ∧
      t.path = entry.path ∧ t.project = entry.project := by
  simp only [target?, bind, Option.bind_eq_some_iff]
  refine exists_congr fun entry => and_congr_right fun _ => ?_
  constructor
  · rintro ⟨target, hlast, ht⟩
    cases Option.some.inj ht
    exact ⟨hlast, rfl, rfl⟩
  · rintro ⟨hlast, hpath, hproject⟩
    refine ⟨t.target, hlast, ?_⟩
    rw [← hpath, ← hproject]
    rfl

theorem target?_isSome : (g.target? path name).isSome = true ↔
    ∃ p, g.project? path = some p ∧ (p.target? name).isSome = true := by
  simp only [project?, target?, bind]
  cases g.projects.at? path with
  | none => simp
  | some entry =>
    have hsame : (entry.project.lastTarget? name).isSome = (entry.project.target? name).isSome :=
      Project.lastTarget?_isSome
    cases hlast : entry.project.lastTarget? name <;> simp_all

theorem checkTarget_eq_ok {id : TargetId} :
    g.projects.checkTarget id = .ok () ↔ (g.targetOfId? id).isSome = true := by
  rw [targetOfId?, target?_isSome]
  simp only [project?, ProjectTable.checkTarget]
  cases g.projects.at? id.projectPath with
  | none => simp
  | some entry => cases htarget : entry.project.target? id.name <;> simp [htarget]

theorem declares_iff {id : TargetId} :
    g.projects.declares id = true ↔ (g.targetOfId? id).isSome = true := by
  rw [targetOfId?, target?_isSome, ProjectTable.declares, Option.any_eq_true]
  simp only [project?_eq_some]
  constructor
  · rintro ⟨entry, hat, htarget⟩
    exact ⟨_, ⟨entry, hat, rfl⟩, htarget⟩
  · rintro ⟨_, ⟨entry, hat, rfl⟩, htarget⟩
    exact ⟨entry, hat, htarget⟩

theorem IsBuilt.exists_node (hg : g.IsBuilt) (ht : g.target? path name = some t) :
    ∃ n, g.wiring.node? (.ofTarget path name) = some n ∧ g.targetOfNode? n = some t := by
  obtain ⟨workspace, calls, hb⟩ := hg
  obtain ⟨-, rfl⟩ := Draft.sound_of_build hb
  obtain ⟨entry, hentry, hpath, hlast, -⟩ := target?_eq_some ht
  obtain ⟨p, hp, rfl, hown⟩ := Draft.exists_register hentry
  obtain ⟨htarget, hname⟩ := Project.mem_of_lastTarget? hlast
  have hkey : sortKey (NodeKey.ofTarget path name) ∈
      (Draft.ofCalls workspace calls).wiring.keys.map sortKey := by
    rw [Draft.mem_keys_ofCalls]
    refine ⟨_, hp, List.mem_map.2 ⟨_, List.mem_map_of_mem htarget, ?_⟩⟩
    exact congrArg (SortKey.cons (.num 0)) (sortKey_targetId.2 ⟨hown.symm.trans hpath, hname⟩)
  obtain ⟨n, hn⟩ := Option.ne_none_iff_exists'.1 fun hnone => Wiring.node?_eq_none.1 hnone hkey
  exact ⟨n, hn, targetOfNode?_of_node? ht hn⟩

theorem IsBuilt.exists_consumer (hg : g.IsBuilt) (ht : g.target? path name = some t) :
    ∃ n, g.consumer? path name = some ⟨g, n, t⟩ ∧ g.targetOfNode? n = some t := by
  obtain ⟨n, hn, hnode⟩ := hg.exists_node ht
  exact ⟨n, by simp [consumer?, ht, hn], hnode⟩

end

/-! ## One description for each target -/

/-- How what a graph knows of its targets compares with the projects that it holds. -/
structure FindsTargets (g : Graph) : Prop where
  found : ∀ path name, (g.target? path name).isSome = true ↔
    ∃ p, g.project? path = some p ∧ (p.target? name).isSome = true
  listed : ∀ path name t, g.target? path name = some t → g.project? path = some t.project ∧
    t.project.target? name = (t.project.targetsNamed name).head? ∧
      (t.project.targetsNamed name).getLast? = some t.target
  keyed : ∀ path name p, g.project? path = some p → (g.target? path name).map (·.target) =
    findKey (fun t => sortKey t.name) p.targetsByName (sortKey name)
  single : ∀ path name t, g.target? path name = some t →
    (t.project.targetsNamed name).length ≤ 1 → t.project.target? name = some t.target
  checked : ∀ id, g.projects.checkTarget id = .ok () ↔ (g.targetOfId? id).isSome = true
  declared : ∀ id, g.projects.declares id = true ↔ (g.targetOfId? id).isSome = true
  searched : ∀ id t, g.targetOfId? id = some t → (t.project.targetsNamed id.name).length ≤ 1 →
    g.projects.declaredTargets id =
      (t.target.dependencies.filterMap (·.targetId? id.projectPath)).filter g.projects.declares
  nodes : ∀ n, g.wiring.holds NodeKey.isTarget n = true → ∃ t, g.targetOfNode? n = some t
  noded : ∀ path name t, g.target? path name = some t →
    ∃ n, g.wiring.node? (.ofTarget path name) = some n ∧ g.targetOfNode? n = some t

section
variable {g : Graph} {path : Path} {name : String} {t : ProjectTarget}

theorem project?_of_target? (ht : g.target? path name = some t) :
    g.project? path = some t.project ∧ t.project.lastTarget? name = some t.target := by
  obtain ⟨entry, hat, hlast, -, hproject⟩ := target?_eq_some_iff.1 ht
  exact ⟨project?_eq_some.2 ⟨entry, hat, hproject.symm⟩, hproject ▸ hlast⟩

theorem target?_of_project? {p : Project} (hp : g.project? path = some p) :
    (g.target? path name).map (·.target) = p.lastTarget? name := by
  obtain ⟨entry, hat, rfl⟩ := project?_eq_some.1 hp
  simp only [target?, hat, bind, Option.bind_some]
  cases entry.project.lastTarget? name <;> rfl

theorem target?_of_single (ht : g.target? path name = some t)
    (h : (t.project.targetsNamed name).length ≤ 1) : t.project.target? name = some t.target := by
  rw [Project.target?_eq_lastTarget? h, (project?_of_target? ht).2]

theorem declaredTargets_of_single {id : TargetId} (ht : g.targetOfId? id = some t)
    (h : (t.project.targetsNamed id.name).length ≤ 1) : g.projects.declaredTargets id =
      (t.target.dependencies.filterMap (·.targetId? id.projectPath)).filter g.projects.declares := by
  obtain ⟨entry, hat, hproject⟩ := project?_eq_some.1 (project?_of_target? ht).1
  have hfirst : entry.project.target? id.name = some t.target := hproject ▸ target?_of_single ht h
  simp only [ProjectTable.declaredTargets, hat, Option.bind_some, hfirst]

theorem IsBuilt.findsTargets (hg : g.IsBuilt) : g.FindsTargets where
  found _ _ := target?_isSome
  listed _ _ _ ht := by
    obtain ⟨hproject, hlast⟩ := project?_of_target? ht
    exact ⟨hproject, Project.target?_eq_head?, Project.lastTarget?_eq_getLast? ▸ hlast⟩
  keyed _ _ _ hp := (target?_of_project? hp).trans Project.findKey_targetsByName.symm
  single _ _ _ ht h := target?_of_single ht h
  checked _ := checkTarget_eq_ok
  declared _ := declares_iff
  searched _ _ ht h := declaredTargets_of_single ht h
  nodes _ hn := hg.exists_target hn
  noded _ _ _ ht := hg.exists_node ht

end

end Graph

/-! ## Graphs that are assembled -/

theorem Draft.projects_registerAll {table : ProjectTable} (ht : table.Distinct)
    (workspace : Workspace) (s : Sources) (ls : List Link) :
    (ofCalls workspace (s.assemblyCalls table ls)).projects = table := by
  have hown : (table.map (·.project)).map ProjectEntry.ofProject = table := by
    rw [List.map_map]
    refine (List.map_congr_left fun entry hentry => ?_).trans (List.map_id table)
    change ProjectEntry.ofProject entry.project = id entry
    rw [ProjectEntry.ofProject, ← ht.own entry hentry]
    rfl
  have hregistered : (s.assemblyCalls table ls).filterMap DraftCall.project? =
      table.map (·.project) := by
    have hlinks : ls.filterMap (fun l => DraftCall.project?
        (.declare l.source l.target l.condition)) = [] :=
      List.filterMap_eq_nil_iff.2 fun _ _ => rfl
    simp only [Sources.assemblyCalls, List.cons_append, List.filterMap_cons, DraftCall.project?,
      List.filterMap_append, List.filterMap_map, Function.comp_def] at hlinks ⊢
    simp [hlinks]
  rw [projects_ofCalls, hregistered, hown]
  exact @foldl_insertBy_increasing _ _ _ table [] ht.increasing

theorem Sources.isBuilt_of_assemble {s : Sources} {workspace : Workspace} {projects : List Project}
    {g : Graph} (h : (s.assemble workspace projects).graph = .ok g) :
    g.IsBuilt ∧ g.projects = .ofList projects := by
  obtain ⟨-, -, final, hrun, hbuild⟩ := assemble_eq_ok.1 h
  have hyields := yields_addTargets s (.ofList projects) (s.start workspace (.ofList projects))
  rw [hrun] at hyields
  obtain ⟨-, ls, hdraft, -⟩ := hyields
  rw [hdraft, declareAll_start] at hbuild
  obtain ⟨-, rfl⟩ := Draft.sound_of_build hbuild
  exact ⟨⟨_, _, hbuild⟩,
    Draft.projects_registerAll (ProjectTable.distinct_ofList projects) workspace s ls⟩

/-- However a graph came about, it finds a target where the checks and the search for cycles
find one, which is the same one where the name is listed once; and it knows the target of each
target node. -/
theorem Graph.finds_targets (g : Graph) : (g.IsBuilt → g.FindsTargets) ∧
    ∀ (s : Sources) (workspace : Workspace) (projects : List Project),
      (s.assemble workspace projects).graph = .ok g →
        g.projects = .ofList projects ∧ g.FindsTargets := by
  refine ⟨fun hg => hg.findsTargets, fun s workspace projects h => ?_⟩
  obtain ⟨hg, hprojects⟩ := Sources.isBuilt_of_assemble h
  exact ⟨hprojects, hg.findsTargets⟩

/-! ## A name that is listed twice -/

def relistedProject : Project :=
  ⟨⟨"/w"⟩, "W", .localProject, [{ name := "App", product := .app },
    { name := "Kit", product := .framework }, { name := "Kit", product := .staticLibrary }]⟩

def relisted : Draft :=
  .ofCalls ⟨⟨"/w"⟩, "W", []⟩ [.register relistedProject,
    .declare (.ofTarget ⟨"/w"⟩ "App") (.ofTarget ⟨"/w"⟩ "Kit") none]

def relistedGraph : Graph := ⟨relisted.workspace, relisted.projects, relisted.wiring⟩

theorem isBuilt_relisted : relistedGraph.IsBuilt :=
  Draft.isBuilt_of_checks (by decide) (by decide) (by decide)

theorem finds_targets_relisted :
    (relistedGraph.IsBuilt ∧ relistedGraph.FindsTargets ∧
      ∃ t, relistedGraph.target? ⟨"/w"⟩ "App" = some t ∧
        relistedProject.target? "App" = some t.target) ∧
      ∃ g, (clipSources.assemble clipWorkspace (clipProjects [])).graph = .ok g ∧
        g.FindsTargets := by
  have hfinds := relistedGraph.finds_targets.1 isBuilt_relisted
  refine ⟨⟨isBuilt_relisted, hfinds, ?_⟩, ?_⟩
  · have happ : relistedGraph.target? ⟨"/w"⟩ "App" =
        some ⟨⟨"/w"⟩, { name := "App", product := .app }, relistedProject⟩ := by decide +kernel
    exact ⟨_, happ, hfinds.single _ _ _ happ (by decide)⟩
  · obtain ⟨g, hg, -⟩ := assemble_clip
    exact ⟨g, hg, (g.finds_targets.2 _ _ _ hg).2⟩

/-- The checks look at the framework, the answers are those for the static library. -/
theorem relisted_kit_differs : relistedGraph.IsBuilt ∧
    relistedGraph.project? ⟨"/w"⟩ = some relistedProject ∧
    relistedProject.target? "Kit" = some { name := "Kit", product := .framework } ∧
    (relistedGraph.target? ⟨"/w"⟩ "Kit").map (·.target) =
      some { name := "Kit", product := .staticLibrary } ∧
    (relistedGraph.targetOfNode? 1).map (·.product) = some .staticLibrary :=
  ⟨isBuilt_relisted, by decide, by decide, by decide +kernel, by decide +kernel⟩

end BuildGraph
