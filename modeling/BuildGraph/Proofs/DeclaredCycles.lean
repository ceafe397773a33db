import BuildGraph.Proofs.Declarations
import BuildGraph.Proofs.Validation

/-!
# Declared cycles

A cycle of targets in an assembled graph runs along dependencies that targets declare. The
search before any inquiry takes a target by its name, so where a name is listed twice it
follows the first target of that name, while the graph has the edges of all of them. Every
other cycle is found before anything is asked.
-/

namespace BuildGraph

/-! ## Declarations in a table -/

namespace ProjectTable

structure Distinct (table : ProjectTable) : Prop where
  increasing : IncreasingBy sortKey table
  own : ∀ entry ∈ table, entry.path = entry.project.path

theorem distinct_ofList (projects : List Project) : (ofList projects).Distinct where
  increasing := collectBy_increasing (keepsKey_keepLast sortKey) _
  own entry h := by
    obtain ⟨p, -, rfl⟩ := List.mem_map.1 (mem_collectBy_keepLast h)
    rfl

/-- Some listed target of the identity, not always the first of its name, depends on the
other target, which exists. -/
def Lists (table : ProjectTable) (a b : TargetId) : Prop :=
  ∃ entry ∈ table, sortKey entry.path = sortKey a.projectPath ∧
    ∃ t ∈ entry.project.targets, t.name = a.name ∧
      ∃ d ∈ t.dependencies, ∃ id, d.targetId? entry.path = some id ∧ sortKey id = sortKey b ∧
        table.declares id = true

/-- The search does not follow the dependency, and the name is listed twice. -/
def Overlooks (table : ProjectTable) (a b : TargetId) : Prop :=
  (∀ c ∈ table.declaredTargets a, sortKey c ≠ sortKey b) ∧
    ∃ entry ∈ table, sortKey entry.path = sortKey a.projectPath ∧
      2 ≤ (entry.project.targets.map (·.name)).count a.name

section
variable {table : ProjectTable} {a b c : TargetId}

theorem at?_congr {p q : Path} (h : sortKey p = sortKey q) : table.at? p = table.at? q := by
  simp only [at?, same, h]

theorem declares_congr (h : sortKey a = sortKey b) : table.declares a = table.declares b := by
  obtain ⟨hpath, hname⟩ := sortKey_targetId.1 h
  simp only [declares, at?_congr hpath, hname]

theorem at?_of_mem (ht : table.Distinct) {entry : ProjectEntry} (hentry : entry ∈ table)
    {path : Path} (h : sortKey entry.path = sortKey path) : table.at? path = some entry := by
  cases hat : table.at? path with
  | none => exact absurd h (at?_eq_none hat entry hentry)
  | some other =>
    obtain ⟨hother, hpath⟩ := at?_eq_some hat
    rw [List.inj_on_of_nodup_map ht.increasing.nodup hother hentry (hpath.trans h.symm)]

theorem isSome_target?_of_mem {p : Project} {t : Target} (h : t ∈ p.targets) :
    (p.target? t.name).isSome = true := by
  rw [Project.target?, List.find?_isSome]
  exact ⟨t, h, beq_self_eq_true t.name⟩

theorem declares_iff (ht : table.Distinct) : table.declares a = true ↔
    ∃ entry ∈ table, sortKey entry.path = sortKey a.projectPath ∧
      ∃ t ∈ entry.project.targets, t.name = a.name := by
  unfold declares
  constructor
  · intro h
    obtain ⟨entry, hat, hfound⟩ := (Option.any_eq_true ..).1 h
    obtain ⟨hentry, hpath⟩ := at?_eq_some hat
    obtain ⟨t, hname⟩ := Option.isSome_iff_exists.1 hfound
    refine ⟨entry, hentry, hpath, t, List.mem_of_find?_eq_some hname, ?_⟩
    simpa using List.find?_some hname
  · rintro ⟨entry, hentry, hpath, t, htarget, hname⟩
    rw [at?_of_mem ht hentry hpath, Option.any_some, ← hname]
    exact isSome_target?_of_mem htarget

/-! ## What the search follows -/

theorem mem_declaredTargets : c ∈ table.declaredTargets a ↔ ∃ t,
    (table.at? a.projectPath).bind (·.project.target? a.name) = some t ∧
      (∃ d ∈ t.dependencies, d.targetId? a.projectPath = some c) ∧ table.declares c = true := by
  unfold declaredTargets
  cases (table.at? a.projectPath).bind (·.project.target? a.name) with
  | none => simp
  | some t => simp [List.mem_filter, List.mem_filterMap]

theorem exists_targetId? {p q : Path} (h : sortKey p = sortKey q) {d : Dependency} {id : TargetId}
    (hid : d.targetId? p = some id) :
    ∃ id', d.targetId? q = some id' ∧ sortKey id' = sortKey id := by
  cases d with
  | target name _ =>
    cases hid
    exact ⟨⟨q, name⟩, rfl, sortKey_targetId.2 ⟨h.symm, rfl⟩⟩
  | project name path _ =>
    cases hid
    exact ⟨⟨path, name⟩, rfl, rfl⟩
  | _ => cases hid

theorem declaredTargets_congr (h : sortKey a = sortKey b) (hc : c ∈ table.declaredTargets a) :
    ∃ c' ∈ table.declaredTargets b, sortKey c' = sortKey c := by
  obtain ⟨hpath, hname⟩ := sortKey_targetId.1 h
  obtain ⟨t, htarget, ⟨d, hd, hid⟩, hdeclared⟩ := mem_declaredTargets.1 hc
  obtain ⟨c', hid', hsame⟩ := exists_targetId? hpath hid
  rw [at?_congr hpath, hname] at htarget
  have hdeclared' : table.declares c' = true := declares_congr hsame ▸ hdeclared
  exact ⟨c', mem_declaredTargets.2 ⟨t, htarget, ⟨d, hd, hid'⟩, hdeclared'⟩, hsame⟩

theorem checkDeclaredCycles_of_none (h : table.declaredCycle? = none) :
    table.checkDeclaredCycles = .ok () := by
  rw [checkDeclaredCycles, h]

theorem declaredCycle?_spec (ht : table.Distinct) (hnone : table.declaredCycle? = none)
    (ha : table.declares a = true) :
    ¬ Relation.TransGen (CycleSearch.Leads table.declaredTargets sortKey)
      (sortKey a) (sortKey a) := by
  have hroot {id : TargetId} (h : table.declares id = true) :
      ∃ root ∈ table.targetIds, sortKey root = sortKey id := by
    obtain ⟨entry, hentry, hpath, t, htarget, hname⟩ := (declares_iff ht).1 h
    refine ⟨⟨entry.project.path, t.name⟩, ?_, ?_⟩
    · exact List.mem_flatMap.2 ⟨entry, hentry, List.mem_map_of_mem htarget⟩
    · rw [← ht.own entry hentry]
      exact sortKey_targetId.2 ⟨hpath, hname⟩
  have hstay (b : TargetId) (_ : table.declares b = true) (c : TargetId)
      (hc : c ∈ table.declaredTargets b) : table.declares c = true := by
    obtain ⟨-, -, -, hdeclared⟩ := mem_declaredTargets.1 hc
    exact hdeclared
  have hfinite (b : TargetId) (hb : table.declares b = true) :
      sortKey b ∈ (table.targetIds.map sortKey).toFinset := by
    obtain ⟨root, hmem, hsame⟩ := hroot hb
    exact List.mem_toFinset.2 (List.mem_map.2 ⟨root, hmem, hsame⟩)
  have hroots (v : TargetId) (hv : v ∈ table.targetIds) : table.declares v = true := by
    obtain ⟨entry, hentry, hmem⟩ := List.mem_flatMap.1 hv
    obtain ⟨t, htarget, rfl⟩ := List.mem_map.1 hmem
    have hpath := congrArg sortKey (ht.own entry hentry)
    exact (declares_iff ht).2 ⟨entry, hentry, hpath, t, htarget, rfl⟩
  have hkey (b c : TargetId) (hbc : sortKey b = sortKey c) (s : TargetId)
      (hs : s ∈ table.declaredTargets b) : ∃ t ∈ table.declaredTargets c, sortKey t = sortKey s :=
    declaredTargets_congr hbc hs
  have hsame (b c : TargetId) : same b c = true ↔ sortKey b = sortKey c := same_iff
  -- the search stays among the declared targets, of which there are finitely many
  obtain ⟨r, hr, hs⟩ :=
    CycleSearch.searchCycle_spec hsame hstay hfinite hkey table.targetIds hroots
  rw [declaredCycle?, hr, Option.bind_some] at hnone
  rcases hs with ⟨c, hc, -⟩ | ⟨-, hacyclic⟩
  · rw [hc] at hnone
    cases hnone
  · obtain ⟨root, hmem, hsame⟩ := hroot ha
    exact hacyclic root hmem (sortKey a) (hsame ▸ .refl)

theorem two_le_count {p : Project} {name : String} {first t : Target}
    (hfirst : p.target? name = some first) (ht : t ∈ p.targets) (hname : t.name = name)
    (hne : t ≠ first) : 2 ≤ (p.targets.map (·.name)).count name := by
  obtain ⟨hfound, before, after, htargets, hbefore⟩ := List.find?_eq_some_iff_append.1 hfirst
  have hafter : t ∈ after := by
    rw [htargets, List.mem_append, List.mem_cons] at ht
    rcases ht with hbad | rfl | hafter
    · exact absurd (hbefore t hbad) (by simp [hname])
    · exact absurd rfl hne
    · exact hafter
  have hpos : 0 < (after.map (·.name)).count name :=
    List.count_pos_iff.2 (List.mem_map.2 ⟨t, hafter, hname⟩)
  have hfirstName : first.name = name := by simpa using hfound
  rw [htargets, List.map_append, List.map_cons, List.count_append, hfirstName, List.count_cons_self]
  omega

theorem Lists.found_or_overlooked (ht : table.Distinct) (h : table.Lists a b) :
    (∃ c ∈ table.declaredTargets a, sortKey c = sortKey b) ∨ table.Overlooks a b := by
  by_cases hfound : ∃ c ∈ table.declaredTargets a, sortKey c = sortKey b
  · exact .inl hfound
  right
  obtain ⟨entry, hentry, hpath, t, htarget, hname, d, hd, id, hid, hsame, hdeclared⟩ := h
  refine ⟨fun c hc hcb => hfound ⟨c, hc, hcb⟩, entry, hentry, hpath, ?_⟩
  obtain ⟨first, hfirst⟩ := Option.isSome_iff_exists.1 (isSome_target?_of_mem htarget)
  rw [hname] at hfirst
  refine two_le_count hfirst htarget hname ?_
  rintro rfl
  obtain ⟨id', hid', hsame'⟩ := exists_targetId? hpath hid
  refine hfound ⟨id', mem_declaredTargets.2 ⟨t, ?_, ⟨d, hd, hid'⟩, ?_⟩, hsame'.trans hsame⟩
  · rw [at?_of_mem ht hentry hpath, Option.bind_some, hfirst]
  · rw [declares_congr hsame', hdeclared]

theorem not_overlooks (h : ∀ entry ∈ table, (entry.project.targets.map (·.name)).Nodup) :
    ¬ table.Overlooks a b := by
  rintro ⟨-, entry, hentry, -, htwice⟩
  have honce := List.nodup_iff_count_le_one.1 (h entry hentry) a.name
  omega

theorem Lists.declares (ht : table.Distinct) (h : table.Lists a b) : table.declares a = true := by
  obtain ⟨entry, hentry, hpath, t, htarget, hname, -⟩ := h
  exact (declares_iff ht).2 ⟨entry, hentry, hpath, t, htarget, hname⟩

end

end ProjectTable

/-! ## What steps yield -/

namespace Assembling

/-- Where the step succeeds, its result and the links that it adds are of these kinds; it does
not fail for a cycle. -/
def Yields {α : Type} (m : Assembling α) (P : Link → Prop) (Q : α → Prop) : Prop :=
  ∀ a, match m.run.run a with
    | (.ok x, a') => Q x ∧ ∃ ls : List Link, a'.draft = a.draft.declareAll ls ∧ ∀ l ∈ ls, P l
    | (.error fault, _) => ∀ cycle, fault ≠ .targetCycle cycle

section
variable {α β : Type} {P : Link → Prop} {Q : α → Prop}

theorem yields_pure {x : α} (hx : Q x) : Yields (pure x) P Q :=
  fun _ => ⟨hx, [], rfl, fun _ h => nomatch h⟩

theorem yields_get : Yields get P fun _ => True :=
  fun _ => ⟨trivial, [], rfl, fun _ h => nomatch h⟩

theorem yields_throw {fault : Fault} (h : ∀ cycle, fault ≠ .targetCycle cycle) :
    Yields (throw fault) P Q :=
  fun _ => h

theorem yields_modify {f : Assembly → Assembly} (hf : ∀ a, (f a).draft = a.draft) :
    Yields (modify f) P fun _ => True :=
  fun a => ⟨trivial, [], hf a, fun _ h => nomatch h⟩

theorem yields_declare {source target : NodeKey} {condition : Option Condition}
    (h : P ⟨source, target, condition⟩) :
    Yields (Sources.declare source target condition) P fun _ => True :=
  fun _ => ⟨trivial, [⟨source, target, condition⟩], rfl, by simpa using h⟩

theorem Yields.bind {m : Assembling β} {f : β → Assembling α} {R : β → Prop}
    (hm : Yields m P R) (hf : ∀ x, R x → Yields (f x) P Q) : Yields (m >>= f) P Q := by
  intro a
  have h := hm a
  rw [run_bind]
  rcases hrun : m.run.run a with ⟨fault | x, b⟩
  · rw [hrun] at h
    exact h
  rw [hrun] at h
  obtain ⟨hx, ls, hls, hP⟩ := h
  have h' := hf x hx b
  rcases hrun' : (f x).run.run b with ⟨fault | y, c⟩
  · rw [hrun'] at h'
    simpa only [hrun'] using h'
  · rw [hrun'] at h'
    obtain ⟨hy, ms, hms, hP'⟩ := h'
    simp only [hrun']
    refine ⟨hy, ls ++ ms, ?_, fun l hl => (List.mem_append.1 hl).elim (hP l) (hP' l)⟩
    rw [hms, hls, Draft.declareAll, Draft.declareAll, Draft.declareAll, List.foldl_append]

theorem Yields.imp {m : Assembling α} {R : α → Prop} (hm : Yields m P R)
    (h : ∀ x, R x → Q x) : Yields m P Q := by
  intro a
  have ha := hm a
  rcases hrun : m.run.run a with ⟨fault | x, b⟩
  · rw [hrun] at ha
    exact ha
  · rw [hrun] at ha
    exact ⟨h x ha.1, ha.2⟩

theorem yields_forM {f : β → Assembling Unit} : ∀ {xs : List β},
    (∀ x ∈ xs, Yields (f x) P fun _ => True) → Yields (xs.forM f) P fun _ => True
  | [], _ => yields_pure trivial
  | x :: _, h => (h x List.mem_cons_self).bind fun _ _ =>
    yields_forM fun y hy => h y (List.mem_cons_of_mem _ hy)

end

end Assembling

namespace Sources

open Assembling

section
variable {α : Type} {P : Link → Prop}

theorem yields_ask {inquiry : Inquiry} {kind : ArtifactKind} {path : Path}
    {result : Except InspectionError α} :
    Yields (ask inquiry kind path result) P fun _ => True := by
  refine Yields.bind (yields_modify ?_) fun _ _ => ?_
  · exact fun _ => rfl
  match result with
  | .ok facts => exact yields_pure trivial
  | .error (.notFound _) => exact yields_throw fun _ h => nomatch h
  | .error (.unsupported _) => exact yields_throw fun _ h => nomatch h

theorem yields_askOnce {entries : ArtifactCatalog → List (Path × α)}
    {add : ArtifactCatalog → Path → α → ArtifactCatalog} {inquiry : Inquiry} {kind : ArtifactKind}
    {path : Path} {result : Except InspectionError α} :
    Yields (askOnce entries add inquiry kind path result) P fun _ => True := by
  refine yields_get.bind fun a _ => ?_
  cases ArtifactCatalog.lookup? (entries a.known) path with
  | some facts => exact yields_pure trivial
  | none =>
    refine yields_ask.bind fun _ _ => Yields.bind (yields_modify ?_) fun _ _ =>
      yields_pure trivial
    exact fun _ => rfl

theorem yields_sdk {s : Sources} {target : Target} {name : String} {platform? : Option Platform}
    {status : LinkStatus} {source : SdkOrigin} :
    Yields (s.sdk target name platform? status source) P fun key => key.isTarget = false := by
  unfold sdk
  cases platform? <|> target.mainPlatform? with
  | none => exact yields_throw fun _ h => nomatch h
  | some platform => exact yields_ask.bind fun _ _ => yields_pure rfl

end

def Named (table : ProjectTable) (path : Path) (d : Dependency) (key : NodeKey) : Prop :=
  ∀ id, key = .target id → d.targetId? path = some id ∧ table.declares id = true

section
variable {table : ProjectTable}

theorem named_of_artifact {path : Path} {d : Dependency} {key : NodeKey}
    (h : key.isTarget = false) : Named table path d key := by
  rintro id rfl
  cases h

theorem yields_orFail {P : Link → Prop} {path : Path} {d : Dependency} {id : TargetId}
    (hid : d.targetId? path = some id) :
    Yields (resolve.orFail (table.findTarget id)) P (Named table path d) := by
  unfold ProjectTable.findTarget ProjectTable.checkTarget
  cases hat : table.at? id.projectPath with
  | none => exact yields_throw fun _ h => nomatch h
  | some entry =>
    dsimp only
    cases htarget : entry.project.target? id.name with
    | none => exact yields_throw fun _ h => nomatch h
    | some t =>
      refine yields_pure fun id' h => ?_
      cases h
      exact ⟨hid, by simp [ProjectTable.declares, hat, htarget]⟩

theorem yields_resolve (s : Sources) {P : Link → Prop}
    (hP : ∀ l : Link, l.target.isTarget = false → P l) (path : Path) (target : Target)
    (d : Dependency) : Yields (s.resolve table path target d) P (Named table path d) := by
  cases d with
  | target name _ => exact yields_orFail rfl
  | project name path _ => exact yields_orFail rfl
  | framework path status _ | library path headers moduleMap _ =>
    exact yields_askOnce.bind fun _ _ => yields_pure (named_of_artifact rfl)
  | xcframework path status _ =>
    refine yields_askOnce.bind fun facts _ => ?_
    cases facts.macroPath with
    | none => exact yields_pure (named_of_artifact rfl)
    | some macroPath =>
      exact (yields_declare (hP _ rfl)).bind fun _ _ => yields_pure (named_of_artifact rfl)
  | sdk name status _ | xctest => exact yields_sdk.imp fun _ => named_of_artifact
  | package product use _ | bundle path _ => exact yields_pure (named_of_artifact rfl)

def Declared (table : ProjectTable) (l : Link) : Prop :=
  ∀ id, l.target = .target id → ∃ entry ∈ table, ∃ t ∈ entry.project.targets,
    l.source = .ofTarget entry.project.path t.name ∧
      ∃ d ∈ t.dependencies, d.targetId? entry.project.path = some id ∧ table.declares id = true

theorem declared_of_artifact {l : Link} (h : l.target.isTarget = false) : Declared table l := by
  intro id hid
  rw [hid] at h
  cases h

theorem yields_addTarget (s : Sources) {entry : ProjectEntry} (hentry : entry ∈ table)
    {t : Target} (ht : t ∈ entry.project.targets) :
    Yields (s.addTarget table entry.project.path t) (Declared table) fun _ => True := by
  refine Yields.bind (yields_forM fun d hd => ?_) fun _ _ => ?_
  · refine (yields_resolve s (fun _ => declared_of_artifact) _ t d).bind fun key hkey => ?_
    refine yields_declare fun id hid => ?_
    obtain ⟨hnamed, hdeclared⟩ := hkey id hid
    exact ⟨entry, hentry, t, ht, rfl, d, hd, hnamed, hdeclared⟩
  · split
    · exact yields_sdk.bind fun key hkey => yields_declare (declared_of_artifact hkey)
    · exact yields_pure trivial

theorem yields_addTargets (s : Sources) (table : ProjectTable) :
    Yields (s.addTargets table) (Declared table) fun _ => True :=
  yields_forM fun _ hentry => yields_forM fun _ ht => yields_addTarget s hentry ht

theorem Declared.lists (ht : table.Distinct) {l : Link} (hl : Declared table l) {a b : TargetId}
    (ha : sortKey l.source = sortKey (NodeKey.target a))
    (hb : sortKey l.target = sortKey (NodeKey.target b)) : table.Lists a b := by
  obtain ⟨source, target, condition⟩ := l
  cases NodeKey.alike_of_sortKey hb with
  | target hpath hname =>
    obtain ⟨entry, hentry, t, htarget, rfl, d, hd, hid, hdeclared⟩ := hl _ rfl
    cases NodeKey.alike_of_sortKey ha with
    | target hfrom hcalled =>
      rw [← ht.own entry hentry] at hfrom hid
      exact ⟨entry, hentry, hfrom, t, htarget, hcalled, d, hd, _, hid,
        sortKey_targetId.2 ⟨hpath, hname⟩, hdeclared⟩

end

end Sources

/-! ## Cycles along declarations -/

theorem transGen_of_isChain {α : Type} {R : α → α → Prop} {a b : α} {rest : List α}
    (h : (a :: b :: rest).IsChain R) (hback : (b :: rest).getLast? = some a) :
    Relation.TransGen R a a := by
  rw [List.isChain_cons_cons] at h
  rw [List.getLast?_eq_some_getLast (List.cons_ne_nil b rest)] at hback
  have hround := List.relationReflTransGen_of_exists_isChain_cons rest h.2 (Option.some.inj hback)
  exact .head' h.1 hround

namespace Sources

section
variable {s : Sources} {workspace : Workspace} {projects : List Project} {cycle : List TargetId}

theorem assemble_of_declaredCycle
    (hprojects : checkProjects workspace (.ofList projects) = .ok ())
    (hcycle : (ProjectTable.ofList projects).declaredCycle? = some cycle) :
    s.assemble workspace projects = ⟨.error (.targetCycle cycle), []⟩ := by
  simp only [assemble, hprojects, ProjectTable.checkDeclaredCycles, hcycle]

theorem assemble_eq_targetCycle
    (h : (s.assemble workspace projects).graph = .error (.targetCycle cycle)) :
    let table := ProjectTable.ofList projects
    checkProjects workspace table = .ok () ∧ (table.declaredCycle? = some cycle ∨
      table.declaredCycle? = none ∧ ∃ ls : List Link, (∀ l ∈ ls, Declared table l) ∧
        (Draft.ofCalls workspace (s.assemblyCalls table ls)).build =
          .error (.targetCycle cycle)) := by
  intro table
  cases hprojects : checkProjects workspace table with
  | error e =>
    simp only [assemble, hprojects, table] at h
    cases h
    unfold checkProjects at hprojects
    split at hprojects <;> cases hprojects
  | ok u =>
    refine ⟨rfl, ?_⟩
    cases hdeclared : table.declaredCycle? with
    | some found =>
      rw [assemble_of_declaredCycle hprojects hdeclared] at h
      cases h
      exact .inl rfl
    | none =>
      refine .inr ⟨rfl, ?_⟩
      rw [assemble_eq_run hprojects (ProjectTable.checkDeclaredCycles_of_none hdeclared)] at h
      have hyields := yields_addTargets s table (s.start workspace table)
      change (let run := (s.addTargets table).run.run (s.start workspace table)
        run.1.bind fun () => run.2.draft.build) = .error (.targetCycle cycle) at h
      -- the run itself never fails for a cycle, so the fault is that of the draft
      rcases hrun : (s.addTargets table).run.run (s.start workspace table) with ⟨fault | v, final⟩
      · rw [hrun] at h hyields
        cases h
        exact absurd rfl (hyields cycle)
      · rw [hrun] at h hyields
        obtain ⟨-, ls, hdraft, hls⟩ := hyields
        rw [declareAll_start] at hdraft
        exact ⟨ls, hls, hdraft ▸ h⟩

theorem isChain_lists {table : ProjectTable} (ht : table.Distinct) {ls : List Link}
    (hls : ∀ l ∈ ls, Declared table l)
    (hcycle : (Draft.ofCalls workspace (s.assemblyCalls table ls)).wiring.IsTargetCycle cycle) :
    cycle.IsChain table.Lists := by
  refine hcycle.isChain fun e he a b ha hb => ?_
  obtain ⟨p, hp⟩ := Condition.exists_appliesAt e.condition
  obtain ⟨l, hl, hsource, htarget, -⟩ := depends_assemblyCalls.1
    ⟨e, he, Wiring.sortKey?_eq_some.2 ⟨_, ha, rfl⟩, Wiring.sortKey?_eq_some.2 ⟨_, hb, rfl⟩, hp⟩
  exact (hls l hl).lists ht hsource htarget

end

end Sources

/-- If an assembly fails for a cycle of targets, it fails so whatever the sources answer and
without asking, unless only a later target of a repeated name declares a step of the cycle. -/
theorem Sources.declared_cycle_first {s : Sources} {workspace : Workspace}
    {projects : List Project} {cycle : List TargetId}
    (h : (s.assemble workspace projects).graph = .error (.targetCycle cycle)) :
    (∀ s' : Sources, s'.assemble workspace projects = ⟨.error (.targetCycle cycle), []⟩) ∨
      ∃ before a b after, cycle = before ++ a :: b :: after ∧
        (ProjectTable.ofList projects).Overlooks a b := by
  obtain ⟨hprojects, hfound | ⟨hnone, ls, hls, hbuild⟩⟩ := assemble_eq_targetCycle h
  · left
    exact fun s' => assemble_of_declaredCycle hprojects hfound
  right
  have ht := ProjectTable.distinct_ofList projects
  have hcycle : (Draft.ofCalls workspace
      (s.assemblyCalls (.ofList projects) ls)).wiring.IsTargetCycle cycle := by
    have hspec := Draft.build_spec (Draft.wellFormed_ofCalls workspace
      (s.assemblyCalls (.ofList projects) ls))
    rw [hbuild] at hspec
    cases hspec with
    | targetCycle _ _ _ hgenuine => exact hgenuine
  have hlists := isChain_lists ht hls hcycle
  by_contra hover
  -- each step is known to the search, which has found no cycle
  have hsteps : cycle.IsChain fun a b =>
      CycleSearch.Leads (ProjectTable.ofList projects).declaredTargets sortKey
        (sortKey a) (sortKey b) := by
    rw [List.isChain_iff_forall_rel_of_append_cons_cons] at hlists ⊢
    intro a b before after heq
    rcases (hlists heq).found_or_overlooked ht with ⟨c, hc, hcb⟩ | hoverlooked
    · exact ⟨a, rfl, c, hc, hcb⟩
    · exact absurd ⟨before, a, b, after, heq, hoverlooked⟩ hover
  obtain ⟨a, b, rest, rfl, hback⟩ := hcycle.exists_cons
  have hdeclared := (List.isChain_cons_cons.1 hlists).1.declares ht
  refine ProjectTable.declaredCycle?_spec ht hnone hdeclared ?_
  exact (transGen_of_isChain hsteps hback).lift sortKey fun _ _ h => h

/-! ## A cycle across projects -/

def noSources : Sources where
  inspector := ArtifactCatalog.inspector {}
  locator := SystemSdk.locator ⟨"/P"⟩

def circularProjects : List Project :=
  [⟨⟨"/w"⟩, "W", .localProject, [{
      name := "App"
      product := .app
      dependencies := [.project "Kit" ⟨"/p"⟩ none] }]⟩,
    ⟨⟨"/p"⟩, "P", .localProject, [{
      name := "Kit"
      product := .framework
      dependencies := [.framework ⟨"/F.framework"⟩ .required none,
        .project "App" ⟨"/w/"⟩ none] }]⟩]

def circularWorkspace : Workspace :=
  ⟨⟨"/w"⟩, "W", [⟨"/w"⟩, ⟨"/p"⟩]⟩

def circle : List TargetId :=
  [⟨⟨"/p"⟩, "Kit"⟩, ⟨⟨"/w/"⟩, "App"⟩, ⟨⟨"/p"⟩, "Kit"⟩]

theorem declaredCycle?_circularProjects :
    (ProjectTable.ofList circularProjects).declaredCycle? = some circle := by
  let table := ProjectTable.ofList circularProjects
  have hroots : table.targetIds = [⟨⟨"/p"⟩, "Kit"⟩, ⟨⟨"/w"⟩, "App"⟩] := by decide +kernel
  have hkit : table.declaredTargets ⟨⟨"/p"⟩, "Kit"⟩ = [⟨⟨"/w/"⟩, "App"⟩] := by decide +kernel
  have happ : table.declaredTargets ⟨⟨"/w/"⟩, "App"⟩ = [⟨⟨"/p"⟩, "Kit"⟩] := by decide +kernel
  have hdiffer : same (⟨⟨"/w/"⟩, "App"⟩ : TargetId) ⟨⟨"/p"⟩, "Kit"⟩ = false := by decide +kernel
  have hsame : same (⟨⟨"/p"⟩, "Kit"⟩ : TargetId) ⟨⟨"/p"⟩, "Kit"⟩ = true := by decide +kernel
  change table.declaredCycle? = some circle
  rw [ProjectTable.declaredCycle?, hroots]
  simp [searchCycle, CycleSearch.runAll, hkit, happ, hdiffer, hsame, CycleSearch.Progress.run,
    CycleSearch.Progress.isActive, CycleSearch.Progress.isFinished, CycleSearch.Progress.enter,
    CycleSearch.close, CycleSearch.pathOf, List.findIdx?_cons, circle]

theorem rejected_circularProjects :
    (noSources.assemble circularWorkspace circularProjects).graph = .error (.targetCycle circle) ∧
      ∀ s : Sources, s.assemble circularWorkspace circularProjects =
        ⟨.error (.targetCycle circle), []⟩ := by
  have hprojects : Sources.checkProjects circularWorkspace (.ofList circularProjects) = .ok () := by
    decide +kernel
  have hcycle : (noSources.assemble circularWorkspace circularProjects).graph =
      .error (.targetCycle circle) := by
    rw [Sources.assemble_of_declaredCycle hprojects declaredCycle?_circularProjects]
  refine ⟨hcycle, (Sources.declared_cycle_first hcycle).resolve_right ?_⟩
  rintro ⟨-, a, b, -, -, hoverlooked⟩
  exact ProjectTable.not_overlooks (by decide +kernel) hoverlooked

/-! ## A cycle through a repeated name -/

def repeatedProjects : List Project :=
  [⟨⟨"/w"⟩, "W", .localProject, [
    { name := "A", product := .framework },
    { name := "A"
      product := .framework
      dependencies := [.target "B" none, .framework ⟨"/F.framework"⟩ .required none] },
    { name := "B", product := .framework, dependencies := [.target "A" none] }]⟩]

def repeatedWorkspace : Workspace :=
  ⟨⟨"/w"⟩, "W", [⟨"/w"⟩]⟩

def frameworkSources : Sources where
  inspector := ArtifactCatalog.inspector {
    frameworks := [(⟨"/F.framework"⟩, {
      binaryPath := ⟨"/F.framework/F"⟩
      linking := .dynamic
      architectures := .empty
      dsymPath := none
      bcsymbolmapPaths := [] })] }
  locator := SystemSdk.locator ⟨"/P"⟩

theorem declaredCycle?_repeatedProjects :
    (ProjectTable.ofList repeatedProjects).declaredCycle? = none := by
  let table := ProjectTable.ofList repeatedProjects
  have hroots : table.targetIds = [⟨⟨"/w"⟩, "A"⟩, ⟨⟨"/w"⟩, "A"⟩, ⟨⟨"/w"⟩, "B"⟩] := by decide +kernel
  have ha : table.declaredTargets ⟨⟨"/w"⟩, "A"⟩ = [] := by decide +kernel
  have hb : table.declaredTargets ⟨⟨"/w"⟩, "B"⟩ = [⟨⟨"/w"⟩, "A"⟩] := by decide +kernel
  have hdiffer : same (⟨⟨"/w"⟩, "A"⟩ : TargetId) ⟨⟨"/w"⟩, "B"⟩ = false := by decide +kernel
  have hdiffer' : same (⟨⟨"/w"⟩, "B"⟩ : TargetId) ⟨⟨"/w"⟩, "A"⟩ = false := by decide +kernel
  have hsame : same (⟨⟨"/w"⟩, "A"⟩ : TargetId) ⟨⟨"/w"⟩, "A"⟩ = true := by decide +kernel
  change table.declaredCycle? = none
  rw [ProjectTable.declaredCycle?, hroots]
  simp [searchCycle, CycleSearch.runAll, ha, hb, hdiffer, hdiffer', hsame,
    CycleSearch.Progress.run, CycleSearch.Progress.isActive, CycleSearch.Progress.isFinished,
    CycleSearch.Progress.enter, CycleSearch.Progress.leave]

/-- With the framework in place the graph shows the cycle; without it, that is the fault. -/
theorem repeated_cycle_after_inquiry :
    (frameworkSources.assemble repeatedWorkspace repeatedProjects).graph =
        .error (.targetCycle [⟨⟨"/w"⟩, "A"⟩, ⟨⟨"/w"⟩, "B"⟩, ⟨⟨"/w"⟩, "A"⟩]) ∧
      (frameworkSources.assemble repeatedWorkspace repeatedProjects).inquiries =
        [.framework ⟨"/F.framework"⟩] ∧
      (noSources.assemble repeatedWorkspace repeatedProjects).graph =
        .error (.missingArtifact .framework ⟨"/F.framework"⟩) := by
  let table := ProjectTable.ofList repeatedProjects
  have hprojects : Sources.checkProjects repeatedWorkspace table = .ok () := by decide +kernel
  have hcycles := ProjectTable.checkDeclaredCycles_of_none declaredCycle?_repeatedProjects
  have hassemble (s : Sources) := s.assemble_eq_run hprojects hcycles
  let run := (frameworkSources.addTargets table).run.run
    (frameworkSources.start repeatedWorkspace table)
  let w := run.2.draft.wiring
  have hcycle : w.targetCycle? = some [⟨⟨"/w"⟩, "A"⟩, ⟨⟨"/w"⟩, "B"⟩, ⟨⟨"/w"⟩, "A"⟩] := by
    have hroots : w.sortNodes w.targetNodes = [0, 1] := by decide +kernel
    have ha : w.targetSuccessors 0 = [1] := by decide +kernel
    have hb : w.targetSuccessors 1 = [0] := by decide +kernel
    have hsearch : searchCycle (· == ·) w.targetSuccessors [0, 1] = some ⟨some [0, 1, 0], 2⟩ := by
      simp [searchCycle, CycleSearch.runAll, ha, hb, CycleSearch.Progress.run,
        CycleSearch.Progress.isActive, CycleSearch.Progress.isFinished,
        CycleSearch.Progress.enter, CycleSearch.close, CycleSearch.pathOf, List.findIdx?_cons]
    rw [Wiring.targetCycle?, hroots, hsearch]
    decide +kernel
  have hrun : Assembling.Gives (frameworkSources.addTargets table)
      (frameworkSources.start repeatedWorkspace table) () run.2 :=
    Prod.ext (by decide +kernel : run.1 = .ok ()) rfl
  have hbuild := Draft.build_of_targetCycle (by decide +kernel) (by decide +kernel) hcycle
  refine ⟨Sources.graph_of_run hprojects hcycles hrun hbuild, ?_, ?_⟩
  · rw [hassemble]
    decide +kernel
  · rw [hassemble]
    decide +kernel

end BuildGraph
