import BuildGraph.Proofs.Assembled

/-!
# Asking once and asking every time

An assembly asks about an artifact once per kind and path and keeps the answer. If answers are
a matter of kind and path alone, one that asks afresh for every dependency gives the same
graph or the same fault. The two runs go in step: their drafts are equal after every
dependency, and what the first has kept is what the inspector would say again.
-/

namespace BuildGraph

/-! ## Steps side by side -/

namespace Assembling

/-- Both runs end with one result in states that `R` relates, or both fail with one fault in
states that `F` relates. -/
inductive Alike {α : Type} (R F : Assembly → Assembly → Prop) :
    Except Fault α × Assembly → Except Fault α × Assembly → Prop where
  | ok {x : α} {a b : Assembly} (h : R a b) : Alike R F (.ok x, a) (.ok x, b)
  | error {e : Fault} {a b : Assembly} (h : F a b) : Alike R F (.error e, a) (.error e, b)

def InStep {α : Type} (R F : Assembly → Assembly → Prop) (m m' : Assembling α) : Prop :=
  ∀ a b, R a b → Alike R F (m.run.run a) (m'.run.run b)

section
variable {α β : Type} {R F : Assembly → Assembly → Prop}

theorem inStep_pure (x : α) : InStep R F (pure x) (pure x) :=
  fun _ _ h => .ok h

theorem inStep_throw (hF : ∀ {a b}, R a b → F a b) (e : Fault) :
    InStep (α := α) R F (throw e) (throw e) :=
  fun _ _ h => .error (hF h)

theorem inStep_modify {f f' : Assembly → Assembly} (h : ∀ a b, R a b → R (f a) (f' b)) :
    InStep R F (modify f) (modify f') :=
  fun a b hab => .ok (h a b hab)

theorem InStep.bind {m m' : Assembling β} {f f' : β → Assembling α} (hm : InStep R F m m')
    (hf : ∀ x, InStep R F (f x) (f' x)) : InStep R F (m >>= f) (m' >>= f') := by
  intro a b hab
  have h := hm a b hab
  rw [run_bind, run_bind]
  generalize m.run.run a = r at h
  generalize m'.run.run b = r' at h
  cases h with
  | ok h => exact hf _ _ _ h
  | error h => exact .error h

theorem inStep_forM {f f' : β → Assembling Unit} (h : ∀ x, InStep R F (f x) (f' x)) :
    ∀ xs : List β, InStep R F (xs.forM f) (xs.forM f')
  | [] => inStep_pure ()
  | x :: xs => (h x).bind fun _ => inStep_forM h xs

end

end Assembling

/-! ## Ways of asking -/

structure Asking where
  framework : Path → Assembling FrameworkFacts
  library : (path publicHeaders : Path) → (swiftModuleMap : Option Path) →
    Assembling LibraryFacts
  xcframework : Path → Assembling XcframeworkFacts

namespace Sources

section
variable (s : Sources)

def sparing : Asking := ⟨s.framework, s.library, s.xcframework⟩

def afresh : Asking where
  framework path := ask (.framework path) .framework path (s.inspector.framework path)
  library path headers moduleMap :=
    ask (.library path headers moduleMap) .library path (s.inspector.library path headers moduleMap)
  xcframework path := ask (.xcframework path) .xcframework path (s.inspector.xcframework path)

def resolveWith (q : Asking) (projects : ProjectTable) (projectPath : Path) (target : Target) :
    Dependency → Assembling NodeKey
  | .framework path status _ => do
    let facts ← q.framework path
    return .prebuilt (facts.binary path status)
  | .library path publicHeaders swiftModuleMap _ => do
    let facts ← q.library path publicHeaders swiftModuleMap
    return .prebuilt (facts.binary path publicHeaders swiftModuleMap)
  | .xcframework path status _ => do
    let facts ← q.xcframework path
    let key := NodeKey.prebuilt (facts.binary path status)
    match facts.macroPath with
    | some macroPath => declare key (.macroExecutable macroPath) none
    | none => pure ()
    return key
  | other => s.resolve projects projectPath target other

def addTargetWith (q : Asking) (projects : ProjectTable) (projectPath : Path) (target : Target) :
    Assembling Unit := do
  let key := NodeKey.ofTarget projectPath target.name
  target.dependencies.forM fun dependency => do
    declare key (← s.resolveWith q projects projectPath target dependency) dependency.condition
  if target.product == .appClip && s.settings.implicitAppClipSdk then
    declare key (← s.sdk target SystemSdk.appClip (some .ios) .required .system)
      (some (.only .ios))

def addTargetsWith (q : Asking) (projects : ProjectTable) : Assembling Unit :=
  projects.forM fun entry =>
    entry.project.targets.forM (s.addTargetWith q projects entry.project.path)

/-- An assembly that asks in another way, and is the same otherwise. -/
def assembleWith (q : Asking) (workspace : Workspace) (projects : List Project) : Outcome :=
  let table := ProjectTable.ofList projects
  match checkProjects workspace table, table.checkDeclaredCycles with
  | .error e, _ => ⟨.error e, []⟩
  | .ok (), .error e => ⟨.error e, []⟩
  | .ok (), .ok () =>
    let (result, final) := (s.addTargetsWith q table).run.run (s.start workspace table)
    ⟨result.bind fun () => final.draft.build, final.inquiries.reverse⟩

theorem resolveWith_sparing (projects : ProjectTable) (projectPath : Path) (target : Target)
    (d : Dependency) : s.resolveWith s.sparing projects projectPath target d =
      s.resolve projects projectPath target d := by
  cases d <;> rfl

theorem addTargetWith_sparing : s.addTargetWith s.sparing = s.addTarget := by
  funext projects projectPath target
  simp only [addTargetWith, addTarget, resolveWith_sparing]

theorem assembleWith_sparing (workspace : Workspace) (projects : List Project) :
    s.assembleWith s.sparing workspace projects = s.assemble workspace projects := by
  have hadd : s.addTargetsWith s.sparing = s.addTargets := by
    funext table
    simp only [addTargetsWith, addTargets, addTargetWith_sparing]
  simp only [assembleWith, hadd]
  rfl

variable {s}

theorem assembleWith_eq_run {q : Asking} {workspace : Workspace} {projects : List Project}
    (hprojects : checkProjects workspace (.ofList projects) = .ok ())
    (hcycles : (ProjectTable.ofList projects).checkDeclaredCycles = .ok ()) :
    s.assembleWith q workspace projects =
      let run := (s.addTargetsWith q (.ofList projects)).run.run
        (s.start workspace (.ofList projects))
      ⟨run.1.bind fun () => run.2.draft.build, run.2.inquiries.reverse⟩ := by
  simp only [assembleWith, hprojects, hcycles]
  rfl

end

end Sources

/-! ## Assemblies side by side -/

/-- The steps that do not concern artifacts keep `R`, and nothing but `R` is needed to fail. -/
structure Steady (R F : Assembly → Assembly → Prop) : Prop where
  fails : ∀ {a b}, R a b → F a b
  declares : ∀ {a b} source target condition, R a b →
    R { a with draft := a.draft.declare source target condition }
      { b with draft := b.draft.declare source target condition }
  asksSdk : ∀ {a b} name platform status source, R a b →
    R { a with inquiries := .sdk name platform status source :: a.inquiries }
      { b with inquiries := .sdk name platform status source :: b.inquiries }

structure Asking.InStep (R F : Assembly → Assembly → Prop) (q q' : Asking) : Prop where
  framework : ∀ path, Assembling.InStep R F (q.framework path) (q'.framework path)
  library : ∀ path headers moduleMap,
    Assembling.InStep R F (q.library path headers moduleMap) (q'.library path headers moduleMap)
  xcframework : ∀ path, Assembling.InStep R F (q.xcframework path) (q'.xcframework path)

namespace Sources

open Assembling

section
variable {R F : Assembly → Assembly → Prop} (h : Steady R F)
include h

theorem inStep_declare (source target : NodeKey) (condition : Option Condition) :
    InStep R F (declare source target condition) (declare source target condition) :=
  inStep_modify fun _ _ => h.declares source target condition

theorem inStep_sdk (s : Sources) (target : Target) (name : String) (platform? : Option Platform)
    (status : LinkStatus) (source : SdkOrigin) :
    InStep R F (s.sdk target name platform? status source)
      (s.sdk target name platform? status source) := by
  unfold sdk
  cases platform? <|> target.mainPlatform? with
  | none => exact inStep_throw h.fails _
  | some platform =>
    refine InStep.bind ?_ fun path => inStep_pure _
    refine InStep.bind (inStep_modify fun _ _ => h.asksSdk name platform status source) fun _ => ?_
    match s.locator name platform status source with
    | .ok path => exact inStep_pure path
    | .error (.notFound _) => exact inStep_throw h.fails _
    | .error (.unsupported _) => exact inStep_throw h.fails _

theorem inStep_orFail (found : Except Fault NodeKey) :
    InStep R F (resolve.orFail found) (resolve.orFail found) := by
  cases found with
  | ok key => exact inStep_pure key
  | error e => exact inStep_throw h.fails e

variable {q q' : Asking} (hq : q.InStep R F q') (s : Sources)
include hq

theorem inStep_resolveWith (projects : ProjectTable) (projectPath : Path) (target : Target)
    (d : Dependency) : InStep R F (s.resolveWith q projects projectPath target d)
      (s.resolveWith q' projects projectPath target d) := by
  cases d with
  | target name _ | project name path _ => exact inStep_orFail h _
  | framework path status _ => exact (hq.framework path).bind fun facts => inStep_pure _
  | library path headers moduleMap _ =>
    exact (hq.library path headers moduleMap).bind fun facts => inStep_pure _
  | xcframework path status _ =>
    refine (hq.xcframework path).bind fun facts => ?_
    cases facts.macroPath with
    | none => exact inStep_pure _
    | some macroPath => exact (inStep_declare h _ _ _).bind fun _ => inStep_pure _
  | sdk name status _ => exact inStep_sdk h s target name none status .system
  | xctest => exact inStep_sdk h s target SystemSdk.xctest none .required .developer
  | package product use _ | bundle path _ => exact inStep_pure _

theorem inStep_addTargetWith (projects : ProjectTable) (projectPath : Path) (target : Target) :
    InStep R F (s.addTargetWith q projects projectPath target)
      (s.addTargetWith q' projects projectPath target) := by
  refine InStep.bind (inStep_forM (fun d => ?_) _) fun _ => ?_
  · exact (inStep_resolveWith h hq s projects projectPath target d).bind fun key =>
      inStep_declare h _ key d.condition
  · split
    · exact (inStep_sdk h s target _ _ _ _).bind fun key => inStep_declare h _ key _
    · exact inStep_pure ()

theorem inStep_addTargetsWith (projects : ProjectTable) :
    InStep R F (s.addTargetsWith q projects) (s.addTargetsWith q' projects) := by
  unfold addTargetsWith
  refine inStep_forM (fun entry => ?_) projects
  refine inStep_forM (fun target => ?_) entry.project.targets
  exact inStep_addTargetWith h hq s projects entry.project.path target

theorem assembleWith_inStep (hstart : ∀ a, a.known = {} → a.inquiries = [] → R a a)
    (workspace : Workspace) (projects : List Project) :
    (∃ e, s.assembleWith q workspace projects = ⟨.error e, []⟩ ∧
      s.assembleWith q' workspace projects = ⟨.error e, []⟩) ∨
    ∃ run run' : Except Fault Unit × Assembly, Alike R F run run' ∧
      s.assembleWith q workspace projects =
        ⟨run.1.bind fun () => run.2.draft.build, run.2.inquiries.reverse⟩ ∧
      s.assembleWith q' workspace projects =
        ⟨run'.1.bind fun () => run'.2.draft.build, run'.2.inquiries.reverse⟩ := by
  let table := ProjectTable.ofList projects
  cases hprojects : checkProjects workspace table with
  | error e => exact .inl ⟨e, by simp [assembleWith, table, hprojects]⟩
  | ok _ =>
    cases hcycles : table.checkDeclaredCycles with
    | error e => exact .inl ⟨e, by simp [assembleWith, table, hprojects, hcycles]⟩
    | ok _ =>
      have hrelated : R (s.start workspace table) (s.start workspace table) := hstart _ rfl rfl
      exact .inr ⟨_, _, inStep_addTargetsWith h hq s table _ _ hrelated,
        assembleWith_eq_run hprojects hcycles, assembleWith_eq_run hprojects hcycles⟩

end

/-! ## The runs of single questions -/

def faultOf (kind : ArtifactKind) (path : Path) : InspectionError → Fault
  | .notFound _ => .missingArtifact kind path
  | .unsupported reason => .unsupported (.stated reason)

section
variable {α : Type} {inquiry : Inquiry} {kind : ArtifactKind} {path : Path}
  {result : Except InspectionError α} {a : Assembly}

theorem run_ask : (ask inquiry kind path result).run.run a =
    (result.mapError (faultOf kind path), { a with inquiries := inquiry :: a.inquiries }) := by
  unfold ask
  rw [run_bind]
  match result with
  | .ok facts => rfl
  | .error (.notFound _) => rfl
  | .error (.unsupported _) => rfl

theorem run_get : (get : Assembling Assembly).run.run a = (.ok a, a) :=
  rfl

variable {entries : ArtifactCatalog → List (Path × α)}
  {add : ArtifactCatalog → Path → α → ArtifactCatalog}

theorem run_askOnce_of_some {facts : α}
    (h : ArtifactCatalog.lookup? (entries a.known) path = some facts) :
    (askOnce entries add inquiry kind path result).run.run a = (.ok facts, a) := by
  unfold askOnce
  rw [run_bind, run_get]
  dsimp only
  rw [h]
  rfl

theorem run_askOnce_of_none (h : ArtifactCatalog.lookup? (entries a.known) path = none) :
    (askOnce entries add inquiry kind path result).run.run a =
      match result with
      | .ok facts => (.ok facts, { a with
          inquiries := inquiry :: a.inquiries, known := add a.known path facts })
      | .error e => (.error (faultOf kind path e), { a with inquiries := inquiry :: a.inquiries }) := by
  unfold askOnce
  rw [run_bind, run_get]
  dsimp only
  rw [h, run_bind, run_ask]
  cases result with
  | ok facts => rfl
  | error e => rfl

end

end Sources

/-! ## The same answers -/

/-- Answers are a matter of the kind and the path, however it is spelled, and those about
libraries of nothing else. How a failure is worded does not matter. -/
structure ArtifactInspector.ByPath (i : ArtifactInspector) : Prop where
  framework : ∀ p q, sortKey p = sortKey q →
    (i.framework p).toOption = (i.framework q).toOption
  library : ∀ p q headers headers' moduleMap moduleMap', sortKey p = sortKey q →
    (i.library p headers moduleMap).toOption = (i.library q headers' moduleMap').toOption
  xcframework : ∀ p q, sortKey p = sortKey q →
    (i.xcframework p).toOption = (i.xcframework q).toOption

namespace ArtifactCatalog

theorem byPath_inspector (c : ArtifactCatalog) : c.inspector.ByPath where
  framework p q h := by simp only [inspector, toOption_orNotFound, lookup?_congr h]
  library p q _ _ _ _ h := by simp only [inspector, toOption_orNotFound, lookup?_congr h]
  xcframework p q h := by simp only [inspector, toOption_orNotFound, lookup?_congr h]

def Repeats {α : Type} (entries : List (Path × α)) (ask : Path → Option α) : Prop :=
  ∀ path facts, lookup? entries path = some facts → ask path = some facts

theorem Repeats.cons {α : Type} {entries : List (Path × α)} {ask : Path → Option α}
    (h : Repeats entries ask) (hask : ∀ p q, sortKey p = sortKey q → ask p = ask q) {path : Path}
    {facts : α} (hfacts : ask path = some facts) : Repeats ((path, facts) :: entries) ask := by
  intro p found hfound
  rw [lookup?_cons] at hfound
  by_cases hsame : same path p = true
  · rw [if_pos hsame] at hfound
    cases hfound
    rw [← hask path p (same_iff.1 hsame), hfacts]
  · rw [if_neg hsame] at hfound
    exact h p found hfound

structure RepeatsFor (c : ArtifactCatalog) (i : ArtifactInspector) : Prop where
  frameworks : Repeats c.frameworks fun p => (i.framework p).toOption
  libraries : ∀ headers moduleMap,
    Repeats c.libraries fun p => (i.library p headers moduleMap).toOption
  xcframeworks : Repeats c.xcframeworks fun p => (i.xcframework p).toOption

end ArtifactCatalog

/-- The drafts are equal, and what the first assembly has kept would be answered again. -/
structure Mirrors (i : ArtifactInspector) (a b : Assembly) : Prop where
  draft : a.draft = b.draft
  known : a.known.RepeatsFor i

namespace Sources

open Assembling ArtifactCatalog

theorem steady_mirrors (i : ArtifactInspector) : Steady (Mirrors i) fun _ _ => True where
  fails _ := trivial
  declares source target condition h :=
    ⟨congrArg (·.declare source target condition) h.draft, h.known⟩
  asksSdk _ _ _ _ h := ⟨h.draft, h.known⟩

theorem inStep_askOnce_ask {α : Type} {i : ArtifactInspector}
    {entries : ArtifactCatalog → List (Path × α)}
    {add : ArtifactCatalog → Path → α → ArtifactCatalog} {inquiry : Inquiry} {kind : ArtifactKind}
    {path : Path} {result : Except InspectionError α}
    (hfound : ∀ c facts, RepeatsFor c i → lookup? (entries c) path = some facts →
      result.toOption = some facts)
    (hkept : ∀ c facts, RepeatsFor c i → result = .ok facts → (add c path facts).RepeatsFor i) :
    InStep (Mirrors i) (fun _ _ => True) (askOnce entries add inquiry kind path result)
      (ask inquiry kind path result) := by
  intro a b h
  rw [run_ask]
  cases hlookup : lookup? (entries a.known) path with
  | some facts =>
    have hresult := toOption_eq_some.1 (hfound a.known facts h.known hlookup)
    rw [run_askOnce_of_some hlookup, hresult]
    exact .ok ⟨h.draft, h.known⟩
  | none =>
    rw [run_askOnce_of_none hlookup]
    cases hresult : result with
    | ok facts => exact .ok ⟨h.draft, hkept a.known facts h.known hresult⟩
    | error e => exact .error trivial

theorem inStep_sparing_afresh {s : Sources} (hs : s.inspector.ByPath) :
    Asking.InStep (Mirrors s.inspector) (fun _ _ => True) s.sparing s.afresh where
  framework path := by
    refine inStep_askOnce_ask (fun c facts hc hfound => hc.frameworks path facts hfound) ?_
    intro c facts hc hresult
    have hanswer := toOption_eq_some.2 hresult
    exact ⟨hc.frameworks.cons hs.framework hanswer, hc.libraries, hc.xcframeworks⟩
  library path headers moduleMap := by
    refine inStep_askOnce_ask
      (fun c facts hc hfound => hc.libraries headers moduleMap path facts hfound) ?_
    intro c facts hc hresult
    refine ⟨hc.frameworks, fun headers' moduleMap' => ?_, hc.xcframeworks⟩
    have hanswer : (s.inspector.library path headers' moduleMap').toOption = some facts := by
      rw [hs.library path path headers' headers moduleMap' moduleMap rfl, toOption_eq_some.2 hresult]
    exact (hc.libraries headers' moduleMap').cons (fun p q => hs.library p q _ _ _ _) hanswer
  xcframework path := by
    refine inStep_askOnce_ask (fun c facts hc hfound => hc.xcframeworks path facts hfound) ?_
    intro c facts hc hresult
    have hanswer := toOption_eq_some.2 hresult
    exact ⟨hc.frameworks, hc.libraries, hc.xcframeworks.cons hs.xcframework hanswer⟩

end Sources

/-! ## Each path once -/

/-- The kind and path that an inquiry is about; SDKs are located anew for each dependency. -/
def Inquiry.subject? : Inquiry → Option (ArtifactKind × SortKey)
  | framework path => some (.framework, sortKey path)
  | library path _ _ => some (.library, sortKey path)
  | xcframework path => some (.xcframework, sortKey path)
  | sdk _ _ _ _ => none

def subjects (inquiries : List Inquiry) : List (ArtifactKind × SortKey) :=
  inquiries.filterMap Inquiry.subject?

def ArtifactCatalog.paths (c : ArtifactCatalog) : ArtifactKind → List SortKey
  | .framework => c.frameworks.map fun e => sortKey e.1
  | .library => c.libraries.map fun e => sortKey e.1
  | .xcframework => c.xcframeworks.map fun e => sortKey e.1
  | .sdk => []

structure Assembly.Frugal (a : Assembly) : Prop where
  once : (subjects a.inquiries).Nodup
  known : ∀ kind key, (kind, key) ∈ subjects a.inquiries → key ∈ a.known.paths kind

namespace Sources

open Assembling ArtifactCatalog

theorem steady_frugal : Steady (fun a b => a = b ∧ a.Frugal)
    fun a _ => (subjects a.inquiries).Nodup where
  fails h := h.2.once
  declares := by
    rintro a _ source target condition ⟨rfl, h⟩
    exact ⟨rfl, h.once, h.known⟩
  asksSdk := by
    rintro a _ name platform status source ⟨rfl, h⟩
    exact ⟨rfl, h.once, h.known⟩

theorem lookup?_eq_none {α : Type} {entries : List (Path × α)} {path : Path}
    (h : lookup? entries path = none) : sortKey path ∉ entries.map fun e => sortKey e.1 := by
  unfold lookup? at h
  rw [Option.map_eq_none_iff, List.find?_eq_none] at h
  intro hmem
  obtain ⟨e, he, hsame⟩ := List.mem_map.1 hmem
  exact h e he (same_iff.2 hsame)

theorem inStep_askOnce {α : Type} {entries : ArtifactCatalog → List (Path × α)}
    {add : ArtifactCatalog → Path → α → ArtifactCatalog} {inquiry : Inquiry} {kind : ArtifactKind}
    {path : Path} {result : Except InspectionError α}
    (hsubject : inquiry.subject? = some (kind, sortKey path))
    (hentries : ∀ c, (entries c).map (fun e => sortKey e.1) = c.paths kind)
    (hadd : ∀ c facts k key, key ∈ (add c path facts).paths k ↔
      (k = kind ∧ key = sortKey path) ∨ key ∈ c.paths k) :
    InStep (fun a b => a = b ∧ a.Frugal) (fun a _ => (subjects a.inquiries).Nodup)
      (askOnce entries add inquiry kind path result)
      (askOnce entries add inquiry kind path result) := by
  rintro a _ ⟨rfl, h⟩
  cases hlookup : lookup? (entries a.known) path with
  | some facts =>
    rw [run_askOnce_of_some hlookup]
    exact .ok ⟨rfl, h⟩
  | none =>
    -- what was asked about is known, so an unknown path was not asked about
    have hfresh : (kind, sortKey path) ∉ subjects a.inquiries := by
      intro hasked
      have hknown := h.known _ _ hasked
      rw [← hentries] at hknown
      exact lookup?_eq_none hlookup hknown
    have hsubjects : subjects (inquiry :: a.inquiries) =
        (kind, sortKey path) :: subjects a.inquiries :=
      List.filterMap_cons_some hsubject
    have honce : (subjects (inquiry :: a.inquiries)).Nodup := by
      rw [hsubjects]
      exact List.nodup_cons.2 ⟨hfresh, h.once⟩
    rw [run_askOnce_of_none hlookup]
    cases result with
    | error e => exact .error honce
    | ok facts =>
      refine .ok ⟨rfl, honce, fun k key hasked => (hadd a.known facts k key).2 ?_⟩
      rw [hsubjects, List.mem_cons, Prod.mk.injEq] at hasked
      exact hasked.imp_right (h.known k key)

theorem inStep_sparing (s : Sources) : Asking.InStep (fun a b => a = b ∧ a.Frugal)
    (fun a _ => (subjects a.inquiries).Nodup) s.sparing s.sparing where
  framework path := inStep_askOnce rfl (fun _ => rfl) fun c facts k key => by
    cases k <;> simp [paths, addFramework]
  library path headers moduleMap := inStep_askOnce rfl (fun _ => rfl) fun c facts k key => by
    cases k <;> simp [paths, addLibrary]
  xcframework path := inStep_askOnce rfl (fun _ => rfl) fun c facts k key => by
    cases k <;> simp [paths, addXcframework]

/-! ## Whole assemblies -/

section
variable (s : Sources) (workspace : Workspace) (projects : List Project)

theorem graph_afresh (hs : s.inspector.ByPath) :
    (s.assembleWith s.afresh workspace projects).graph = (s.assemble workspace projects).graph := by
  rw [← assembleWith_sparing]
  have hstart (a : Assembly) (hknown : a.known = {}) (_ : a.inquiries = []) :
      Mirrors s.inspector a a := by
    refine ⟨rfl, ?_⟩
    rw [hknown]
    exact ⟨fun _ _ h => (nomatch h), fun _ _ _ _ h => (nomatch h), fun _ _ h => (nomatch h)⟩
  rcases assembleWith_inStep (steady_mirrors s.inspector) (inStep_sparing_afresh hs) s hstart
    workspace projects with ⟨e, h, h'⟩ | ⟨run, run', halike, h, h'⟩
  · rw [h, h']
  · rw [h, h']
    cases halike with
    | error _ => rfl
    | ok hmirrors => simp only [hmirrors.draft]

theorem nodup_inquiries : (subjects (s.assemble workspace projects).inquiries).Nodup := by
  rw [← assembleWith_sparing]
  have hstart (a : Assembly) (_ : a.known = {}) (hnone : a.inquiries = []) :
      a = a ∧ a.Frugal := by
    refine ⟨rfl, ?_, ?_⟩
    · rw [hnone]
      exact List.nodup_nil
    · rw [hnone]
      exact fun _ _ h => nomatch h
  rcases assembleWith_inStep steady_frugal (inStep_sparing s) s hstart workspace projects with
    ⟨e, h, -⟩ | ⟨run, run', halike, h, -⟩
  · rw [h]
    exact List.nodup_nil
  · rw [h, subjects, List.filterMap_reverse, List.nodup_reverse]
    cases halike with
    | error honce => exact honce
    | ok hfrugal => exact hfrugal.2.once

/-- Where answers are a matter of kind and path, keeping them changes neither the graph nor the
fault, and no path is asked about twice for one kind. -/
theorem kept_answers_invisible : (s.inspector.ByPath →
      (s.assemble workspace projects).graph = (s.assembleWith s.afresh workspace projects).graph) ∧
    (subjects (s.assemble workspace projects).inquiries).Nodup :=
  ⟨fun hs => (graph_afresh s workspace projects hs).symm, nodup_inquiries s workspace projects⟩

end

end Sources

/-! ## Two spellings of one path -/

theorem kept_answers_clip : clipSources.inspector.ByPath ∧
    (∃ g, (clipSources.assembleWith clipSources.afresh clipWorkspace (clipProjects [])).graph =
      .ok g ∧ (clipSources.assemble clipWorkspace (clipProjects [])).graph = .ok g) ∧
    (clipSources.assemble clipWorkspace (clipProjects [])).inquiries =
      [.xcframework ⟨"/X.xcframework"⟩, .sdk SystemSdk.appClip .ios .required .system] ∧
    (clipSources.assembleWith clipSources.afresh clipWorkspace (clipProjects [])).inquiries =
      [.xcframework ⟨"/X.xcframework"⟩, .xcframework ⟨"//X.xcframework/"⟩,
        .sdk SystemSdk.appClip .ios .required .system] := by
  have hs : clipSources.inspector.ByPath := ArtifactCatalog.byPath_inspector _
  obtain ⟨hgraph, -⟩ := clipSources.kept_answers_invisible clipWorkspace (clipProjects [])
  obtain ⟨g, hg, -⟩ := assemble_clip
  refine ⟨hs, ⟨g, hgraph hs ▸ hg, hg⟩, ?_, ?_⟩
  · rw [Sources.assemble_eq_run rfl checkDeclaredCycles_clip]
    decide +kernel
  · rw [Sources.assembleWith_eq_run rfl checkDeclaredCycles_clip]
    decide +kernel

end BuildGraph
