import BuildGraph.Proofs.Drafting
import BuildGraph.Proofs.Inquiries
import BuildGraph.Proofs.Links

/-!
# The links that manifests declare

What a manifest declares is a matter of the manifest and the answers of the sources: the
key of each dependency, the macro executable inside an xcframework, and the SDK that app
clips get. An assembly that succeeds declares the links of all targets in order, each once
per dependency, and nothing else.
-/

namespace BuildGraph

namespace Sources

/-! ## Declared links -/

section
variable (s : Sources)

def sdkKey? (target : Target) (name : String) (platform? : Option Platform) (status : LinkStatus)
    (source : SdkOrigin) : Option NodeKey := do
  let platform ← platform? <|> target.mainPlatform?
  let path ← (s.locator name platform status source).toOption
  return .sdk name path status source

def keyOf? (projects : ProjectTable) (projectPath : Path) (target : Target) :
    Dependency → Option NodeKey
  | .target name _ => (projects.findTarget ⟨projectPath, name⟩).toOption
  | .project name path _ => (projects.findTarget ⟨path, name⟩).toOption
  | .framework path status _ =>
    (s.inspector.framework path).toOption.map fun facts => .prebuilt (facts.binary path status)
  | .library path headers moduleMap _ =>
    (s.inspector.library path headers moduleMap).toOption.map fun facts =>
      .prebuilt (facts.binary path headers moduleMap)
  | .xcframework path status _ =>
    (s.inspector.xcframework path).toOption.map fun facts => .prebuilt (facts.binary path status)
  | .sdk name status _ => s.sdkKey? target name none status .system
  | .package product use _ => some (.packageProduct projectPath product use)
  | .bundle path _ => some (.bundle path)
  | .xctest => s.sdkKey? target SystemSdk.xctest none .required .developer

def macroOf? : Dependency → Option NodeKey
  | .xcframework path _ _ =>
    (s.inspector.xcframework path).toOption.bind fun facts =>
      facts.macroPath.map NodeKey.macroExecutable
  | _ => none

def macroLinks (dependency : Dependency) (key : NodeKey) : List Link :=
  (s.macroOf? dependency).toList.map fun executable => ⟨key, executable, none⟩

def dependencyLinks (projects : ProjectTable) (projectPath : Path) (target : Target)
    (dependency : Dependency) : List Link :=
  (s.keyOf? projects projectPath target dependency).toList.flatMap fun key =>
    s.macroLinks dependency key ++
      [⟨.ofTarget projectPath target.name, key, dependency.condition⟩]

def addsClipSdk (target : Target) : Bool :=
  target.product == .appClip && s.settings.implicitAppClipSdk

def clipSdkKey? (target : Target) : Option NodeKey :=
  s.sdkKey? target SystemSdk.appClip (some .ios) .required .system

def clipLinks (projectPath : Path) (target : Target) : List Link :=
  if s.addsClipSdk target then
    (s.clipSdkKey? target).toList.map fun key =>
      ⟨.ofTarget projectPath target.name, key, some (.only .ios)⟩
  else []

def targetLinks (projects : ProjectTable) (projectPath : Path) (target : Target) : List Link :=
  target.dependencies.flatMap (s.dependencyLinks projects projectPath target)
    ++ s.clipLinks projectPath target

def declaredLinks (projects : ProjectTable) : List Link :=
  projects.flatMap fun entry =>
    entry.project.targets.flatMap (s.targetLinks projects entry.project.path)

structure Resolves (projects : ProjectTable) (projectPath : Path) (target : Target) : Prop where
  dependencies : ∀ d ∈ target.dependencies, (s.keyOf? projects projectPath target d).isSome = true
  clipSdk : s.addsClipSdk target = true → (s.clipSdkKey? target).isSome = true

end

end Sources

/-! ## What a step adds -/

def Link.outline (l : Link) : SortKey × SortKey × Option Condition :=
  (sortKey l.source, sortKey l.target, l.condition)

def Draft.declareAll (d : Draft) (ls : List Link) : Draft :=
  ls.foldl (fun d l => d.declare l.source l.target l.condition) d

namespace Sources

open Assembling

/-- The draft has got these links, in some spelling, and what was kept is still right. -/
structure Adds (s : Sources) (expected : List Link) (a a' : Assembly) : Prop where
  draft : ∃ ls : List Link, a'.draft = a.draft.declareAll ls ∧
    ls.map Link.outline = expected.map Link.outline
  known : a'.known.RightFor s.inspector

section
variable {s : Sources} {a b a' : Assembly}

theorem adds_nil (hdraft : a'.draft = a.draft) (hknown : a'.known.RightFor s.inspector) :
    s.Adds [] a a' :=
  ⟨⟨[], hdraft, rfl⟩, hknown⟩

theorem Adds.trans {ls ms : List Link} (h : s.Adds ls a b) (h' : s.Adds ms b a') :
    s.Adds (ls ++ ms) a a' := by
  obtain ⟨xs, hxs, hls⟩ := h.draft
  obtain ⟨ys, hys, hms⟩ := h'.draft
  refine ⟨⟨xs ++ ys, ?_, ?_⟩, h'.known⟩
  · rw [hys, hxs, Draft.declareAll, Draft.declareAll, Draft.declareAll, List.foldl_append]
  · rw [List.map_append, hls, hms, List.map_append]

theorem Adds.congr {ls ms : List Link} (h : s.Adds ls a a')
    (hsame : ls.map Link.outline = ms.map Link.outline) : s.Adds ms a a' := by
  obtain ⟨xs, hxs, hls⟩ := h.draft
  exact ⟨⟨xs, hxs, hls.trans hsame⟩, h.known⟩

theorem gives_declare (ha : a.known.RightFor s.inspector) {source target : NodeKey}
    {condition : Option Condition} {u : Unit} (h : Gives (declare source target condition) a u a') :
    s.Adds [⟨source, target, condition⟩] a a' := by
  obtain rfl := gives_modify.1 h
  exact ⟨⟨[⟨source, target, condition⟩], rfl, rfl⟩, ha⟩

theorem gives_forM {α : Type} {f : α → Assembling Unit} {links : α → List Link} {P : α → Prop}
    {xs : List α}
    (hf : ∀ x ∈ xs, ∀ {b b' : Assembly} {u : Unit}, b.known.RightFor s.inspector →
      Gives (f x) b u b' → P x ∧ s.Adds (links x) b b')
    (ha : a.known.RightFor s.inspector) {u : Unit} (h : Gives (xs.forM f) a u a') :
    (∀ x ∈ xs, P x) ∧ s.Adds (xs.flatMap links) a a' := by
  induction xs generalizing a with
  | nil =>
    obtain ⟨-, rfl⟩ := gives_pure.1 h
    exact ⟨by simp, adds_nil rfl ha⟩
  | cons x xs ih =>
    rw [List.forall_mem_cons] at hf
    obtain ⟨_, b, hx, hxs⟩ := gives_bind.1 h
    obtain ⟨hPx, haddsx⟩ := hf.1 ha hx
    obtain ⟨hP, hadds⟩ := ih hf.2 haddsx.known hxs
    exact ⟨List.forall_mem_cons.2 ⟨hPx, hP⟩, haddsx.trans hadds⟩

/-! ## Resolving -/

theorem gives_sdk {target : Target} {name : String} {platform? : Option Platform}
    {status : LinkStatus} {source : SdkOrigin} {key : NodeKey}
    (h : Gives (s.sdk target name platform? status source) a key a') :
    s.sdkKey? target name platform? status source = some key ∧ a'.draft = a.draft ∧
      a'.known = a.known := by
  unfold sdk at h
  unfold sdkKey?
  cases hplatform : platform? <|> target.mainPlatform? with
  | none =>
    rw [hplatform] at h
    exact absurd h not_gives_throw
  | some platform =>
    rw [hplatform] at h
    obtain ⟨path, b, hb, h⟩ := gives_bind.1 h
    obtain ⟨hresult, hdraft, hknown⟩ := gives_ask hb
    obtain ⟨rfl, rfl⟩ := gives_pure.1 h
    refine ⟨?_, hdraft, hknown⟩
    simp only [Option.bind_eq_bind, Option.bind_some, hresult]
    rfl

theorem gives_orFail {found : Except Fault NodeKey} {key : NodeKey}
    (h : Gives (resolve.orFail found) a key a') : found.toOption = some key ∧ a = a' := by
  unfold resolve.orFail at h
  cases found with
  | error e => exact absurd h not_gives_throw
  | ok found =>
    obtain ⟨rfl, rfl⟩ := gives_pure.1 h
    exact ⟨rfl, rfl⟩

theorem macroLinks_congr (d : Dependency) {k l : NodeKey} (h : sortKey k = sortKey l) :
    (s.macroLinks d k).map Link.outline = (s.macroLinks d l).map Link.outline := by
  simp [macroLinks, Link.outline, h]

theorem sortKey_of_answer {α : Type} [Sortable α] {answer : Option α} {facts : α}
    {key : α → NodeKey} (h : answer.map sortKey = some (sortKey facts))
    (hkey : ∀ {x y : α}, sortKey x = sortKey y → sortKey (key x) = sortKey (key y)) :
    (answer.map key).map sortKey = some (sortKey (key facts)) := by
  obtain ⟨found, rfl, hsame⟩ := Option.map_eq_some_iff.1 h
  exact congrArg some (hkey hsame)

/-- A dependency that resolves has the key that the answers give it, and the macro executable
inside is linked to it. -/
theorem gives_resolve (hs : s.inspector.PathBlind) (ha : a.known.RightFor s.inspector)
    {projects : ProjectTable} {projectPath : Path} {target : Target} {d : Dependency}
    {key : NodeKey} (h : Gives (s.resolve projects projectPath target d) a key a') :
    (s.keyOf? projects projectPath target d).map sortKey = some (sortKey key) ∧
      s.Adds (s.macroLinks d key) a a' := by
  cases d with
  | target name _ =>
    obtain ⟨hkey, rfl⟩ := gives_orFail h
    exact ⟨congrArg (Option.map sortKey) hkey, adds_nil rfl ha⟩
  | project name path _ =>
    obtain ⟨hkey, rfl⟩ := gives_orFail h
    exact ⟨congrArg (Option.map sortKey) hkey, adds_nil rfl ha⟩
  | framework path status _ =>
    obtain ⟨facts, b, hb, h⟩ := gives_bind.1 h
    obtain ⟨hanswer, hdraft, hknown⟩ := gives_framework hs ha hb
    obtain ⟨rfl, rfl⟩ := gives_pure.1 h
    have hkey := sortKey_of_answer hanswer fun hsame =>
      NodeKey.sortKey_prebuilt (FrameworkFacts.sortKey_binary hsame path status)
    exact ⟨hkey, adds_nil hdraft hknown⟩
  | library path headers moduleMap _ =>
    obtain ⟨facts, b, hb, h⟩ := gives_bind.1 h
    obtain ⟨hanswer, hdraft, hknown⟩ := gives_library hs ha hb
    obtain ⟨rfl, rfl⟩ := gives_pure.1 h
    have hkey := sortKey_of_answer hanswer fun hsame =>
      NodeKey.sortKey_prebuilt (LibraryFacts.sortKey_binary hsame path headers moduleMap)
    exact ⟨hkey, adds_nil hdraft hknown⟩
  | xcframework path status condition =>
    obtain ⟨facts, b, hb, h⟩ := gives_bind.1 h
    obtain ⟨hanswer, hdraft, hknown⟩ := gives_xcframework hs ha hb
    have hkey := sortKey_of_answer hanswer fun hsame =>
      NodeKey.sortKey_prebuilt (XcframeworkFacts.sortKey_binary hsame path status)
    obtain ⟨found, hfound, hsame⟩ := Option.map_eq_some_iff.1 hanswer
    have hheld := XcframeworkFacts.sortKey_macroPath hsame
    cases hexecutable : facts.macroPath with
    | none =>
      rw [hexecutable] at h hheld
      obtain ⟨rfl, rfl⟩ := gives_pure.1 h
      have hlinks : s.macroLinks (.xcframework path status condition)
          (.prebuilt (facts.binary path status)) = [] := by
        simp [macroLinks, macroOf?, hfound, Option.map_eq_none_iff.1 hheld]
      exact ⟨hkey, hlinks ▸ adds_nil hdraft hknown⟩
    | some executable =>
      rw [hexecutable] at h hheld
      obtain ⟨_, c, hc, h⟩ := gives_bind.1 h
      obtain ⟨rfl, rfl⟩ := gives_pure.1 h
      obtain ⟨executable', hfound', hpath⟩ := Option.map_eq_some_iff.1 hheld
      refine ⟨hkey, ((adds_nil hdraft hknown).trans (gives_declare hknown hc)).congr ?_⟩
      simp [macroLinks, macroOf?, hfound, hfound', Link.outline,
        NodeKey.sortKey_macroExecutable hpath]
  | sdk name status _ =>
    obtain ⟨hkey, hdraft, hknown⟩ := gives_sdk h
    exact ⟨congrArg (Option.map sortKey) hkey, adds_nil hdraft (hknown ▸ ha)⟩
  | package product use _ =>
    obtain ⟨rfl, rfl⟩ := gives_pure.1 h
    exact ⟨rfl, adds_nil rfl ha⟩
  | bundle path _ =>
    obtain ⟨rfl, rfl⟩ := gives_pure.1 h
    exact ⟨rfl, adds_nil rfl ha⟩
  | xctest =>
    obtain ⟨hkey, hdraft, hknown⟩ := gives_sdk h
    exact ⟨congrArg (Option.map sortKey) hkey, adds_nil hdraft (hknown ▸ ha)⟩

/-! ## Targets -/

section
variable (hs : s.inspector.PathBlind) {projects : ProjectTable} {projectPath : Path}
  {target : Target}
include hs

theorem gives_dependency (ha : a.known.RightFor s.inspector) {d : Dependency} {u : Unit}
    (h : Gives (do
      declare (.ofTarget projectPath target.name)
        (← s.resolve projects projectPath target d) d.condition) a u a') :
    (s.keyOf? projects projectPath target d).isSome = true ∧
      s.Adds (s.dependencyLinks projects projectPath target d) a a' := by
  obtain ⟨key, b, hb, h⟩ := gives_bind.1 h
  obtain ⟨hkey, hadds⟩ := gives_resolve hs ha hb
  obtain ⟨key', hkey', hsame⟩ := Option.map_eq_some_iff.1 hkey
  refine ⟨by rw [hkey']; rfl, (hadds.trans (gives_declare hadds.known h)).congr ?_⟩
  simp [dependencyLinks, hkey', macroLinks_congr d hsame, Link.outline, hsame]

theorem gives_addTarget (ha : a.known.RightFor s.inspector) {u : Unit}
    (h : Gives (s.addTarget projects projectPath target) a u a') :
    s.Resolves projects projectPath target ∧
      s.Adds (s.targetLinks projects projectPath target) a a' := by
  obtain ⟨_, b, hb, h⟩ := gives_bind.1 h
  obtain ⟨hdependencies, hadds⟩ :=
    gives_forM (fun _ _ _ _ _ hc hd => gives_dependency hs hc hd) ha hb
  cases hclip : s.addsClipSdk target with
  | false =>
    have hlinks : s.clipLinks projectPath target = [] := by simp [clipLinks, hclip]
    rw [addsClipSdk] at hclip
    rw [hclip] at h
    obtain ⟨-, rfl⟩ := gives_pure.1 h
    refine ⟨⟨hdependencies, by simp [addsClipSdk, hclip]⟩, ?_⟩
    rwa [targetLinks, hlinks, List.append_nil]
  | true =>
    rw [addsClipSdk] at hclip
    rw [hclip] at h
    obtain ⟨key, c, hc, h⟩ := gives_bind.1 h
    obtain ⟨hkey, hdraft, hknown⟩ := gives_sdk hc
    have hlinks : s.clipLinks projectPath target =
        [⟨.ofTarget projectPath target.name, key, some (.only .ios)⟩] := by
      simp [clipLinks, addsClipSdk, hclip, clipSdkKey?, hkey]
    refine ⟨⟨hdependencies, fun _ => by simp [clipSdkKey?, hkey]⟩, ?_⟩
    rw [targetLinks, hlinks]
    have hright : c.known.RightFor s.inspector := hknown ▸ hadds.known
    exact hadds.trans ((adds_nil hdraft hright).trans (gives_declare hright h))

theorem gives_addTargets (ha : a.known.RightFor s.inspector) {u : Unit}
    (h : Gives (s.addTargets projects) a u a') :
    (∀ entry ∈ projects, ∀ t ∈ entry.project.targets,
      s.Resolves projects entry.project.path t) ∧ s.Adds (s.declaredLinks projects) a a' :=
  gives_forM (fun _ _ _ _ _ hb hentry =>
    gives_forM (fun _ _ _ _ _ hc ht => gives_addTarget hs hc ht) hb hentry) ha h

end

end

/-! ## Whole assemblies -/

def assemblyCalls (s : Sources) (projects : ProjectTable) (ls : List Link) : List DraftCall :=
  .limit s.settings.maxDepth :: projects.map (fun entry => .register entry.project)
    ++ ls.map fun l => .declare l.source l.target l.condition

section
variable {s : Sources} {projects : ProjectTable} {ls : List Link}

theorem mem_assemblyCalls {call : DraftCall} :
    call ∈ s.assemblyCalls projects ls ↔ call = .limit s.settings.maxDepth ∨
      (∃ entry ∈ projects, .register entry.project = call) ∨
        ∃ l ∈ ls, .declare l.source l.target l.condition = call := by
  simp only [assemblyCalls, List.mem_append, List.mem_cons, List.mem_map, or_assoc]

theorem depends_assemblyCalls {workspace : Workspace} {x : Place} {k l : SortKey} :
    (Draft.ofCalls workspace (s.assemblyCalls projects ls)).wiring.Depends x k l ↔
      ∃ link ∈ ls, sortKey link.source = k ∧ sortKey link.target = l ∧
        Condition.appliesAt link.condition x = true := by
  rw [Draft.depends_ofCalls]
  simp only [mem_assemblyCalls]
  constructor
  · rintro ⟨a, b, c, h | ⟨_, _, h⟩ | ⟨link, hlink, h⟩, hends⟩
    · cases h
    · cases h
    · cases h
      exact ⟨link, hlink, hends⟩
  · rintro ⟨link, hlink, hends⟩
    exact ⟨link.source, link.target, link.condition, .inr (.inr ⟨link, hlink, rfl⟩), hends⟩

end

def start (s : Sources) (workspace : Workspace) (projects : ProjectTable) : Assembly where
  draft := projects.foldl (fun d entry => d.register entry.project)
    { workspace, maxDepth := s.settings.maxDepth }

theorem declareAll_start (s : Sources) (workspace : Workspace) (projects : ProjectTable)
    (ls : List Link) : (s.start workspace projects).draft.declareAll ls =
      Draft.ofCalls workspace (s.assemblyCalls projects ls) := by
  simp only [start, assemblyCalls, Draft.ofCalls, Draft.declareAll, List.cons_append,
    List.foldl_cons, List.foldl_append, List.foldl_map]
  rfl

theorem assemble_eq_run {s : Sources} {workspace : Workspace} {projects : List Project}
    (hprojects : checkProjects workspace (.ofList projects) = .ok ())
    (hcycles : (ProjectTable.ofList projects).checkDeclaredCycles = .ok ()) :
    s.assemble workspace projects =
      let run := (s.addTargets (.ofList projects)).run.run (s.start workspace (.ofList projects))
      ⟨run.1.bind fun () => run.2.draft.build, run.2.inquiries.reverse⟩ := by
  simp only [assemble, hprojects, hcycles]
  rfl

theorem graph_of_run {s : Sources} {workspace : Workspace} {projects : List Project}
    {final : Assembly} {result : Except Fault Graph}
    (hprojects : checkProjects workspace (.ofList projects) = .ok ())
    (hcycles : (ProjectTable.ofList projects).checkDeclaredCycles = .ok ())
    (hrun : Gives (s.addTargets (.ofList projects))
      (s.start workspace (.ofList projects)) () final) (hbuild : final.draft.build = result) :
    (s.assemble workspace projects).graph = result := by
  rw [assemble_eq_run hprojects hcycles, hrun, ← hbuild]
  rfl

theorem bind_build_eq_ok {run : Except Fault Unit × Assembly} {g : Graph} :
    (run.1.bind fun () => run.2.draft.build) = .ok g ↔
      ∃ final, run = (.ok (), final) ∧ final.draft.build = .ok g := by
  obtain ⟨_ | _, final⟩ := run
  · simp [Except.bind]
  · simp [Except.bind]

theorem assemble_eq_ok {s : Sources} {workspace : Workspace} {projects : List Project} {g : Graph} :
    let table := ProjectTable.ofList projects
    (s.assemble workspace projects).graph = .ok g ↔
      checkProjects workspace table = .ok () ∧ table.checkDeclaredCycles = .ok () ∧
        ∃ final, Gives (s.addTargets table) (s.start workspace table) () final ∧
          final.draft.build = .ok g := by
  intro table
  cases hprojects : checkProjects workspace table with
  | error e => simp [assemble, table, hprojects]
  | ok _ =>
    cases hcycles : table.checkDeclaredCycles with
    | error e => simp [assemble, table, hprojects, hcycles]
    | ok _ =>
      rw [assemble_eq_run hprojects hcycles]
      refine Iff.trans bind_build_eq_ok ?_
      simp only [true_and]
      rfl

/-- A run over all targets amounts to registering the projects and declaring their links. -/
theorem gives_start {s : Sources} (hs : s.inspector.PathBlind) {workspace : Workspace}
    {projects : ProjectTable} {final : Assembly} {u : Unit}
    (h : Gives (s.addTargets projects) (s.start workspace projects) u final) :
    (∀ entry ∈ projects, ∀ t ∈ entry.project.targets,
      s.Resolves projects entry.project.path t) ∧
      ∃ ls : List Link, ls.map Link.outline = (s.declaredLinks projects).map Link.outline ∧
        final.draft = Draft.ofCalls workspace (s.assemblyCalls projects ls) := by
  obtain ⟨hresolves, hadds⟩ := gives_addTargets hs (ArtifactCatalog.rightFor_empty _) h
  obtain ⟨ls, hdraft, hls⟩ := hadds.draft
  exact ⟨hresolves, ls, hls, hdraft.trans (declareAll_start s workspace projects ls)⟩

end Sources

end BuildGraph
