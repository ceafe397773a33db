import BuildGraph.Proofs.Declarations
import BuildGraph.Proofs.Validation

/-!
# What is assembled

An assembled graph has the links that its manifests declare, under the union of their
conditions, and no others: a target is linked to the keys of its dependencies, an app clip
to its SDK, and an xcframework to the macro executable inside it. A question that gets no
answer leaves no graph.
-/

namespace BuildGraph

namespace NodeKey

theorem sortKey_ofTarget {p q : Path} {m n : String} :
    sortKey (ofTarget p m) = sortKey (ofTarget q n) ↔ sortKey p = sortKey q ∧ m = n := by
  have hid : sortKey (ofTarget p m) = sortKey (ofTarget q n) ↔
      sortKey (TargetId.mk p m) = sortKey (TargetId.mk q n) := by
    change SortKey.cons (.num 0) (sortKey (TargetId.mk p m)) =
      SortKey.cons (.num 0) (sortKey (TargetId.mk q n)) ↔ _
    simp
  rw [hid, sortKey_targetId]

theorem sortKey_ofTarget_ne_prebuilt (p : Path) (n : String) (b : Prebuilt) :
    sortKey (prebuilt b) ≠ sortKey (ofTarget p n) := by
  intro h
  cases alike_of_sortKey h

end NodeKey

namespace Sources

section
variable (s : Sources) (projects : ProjectTable)

inductive Declares (path : Path) (name : String) (key : NodeKey) : Option Condition → Prop where
  | dependency {entry : ProjectEntry} {t : Target} {d : Dependency} {found : NodeKey}
      (registered : entry ∈ projects) (samePath : sortKey entry.project.path = sortKey path)
      (listed : t ∈ entry.project.targets) (named : t.name = name)
      (declared : d ∈ t.dependencies)
      (resolved : s.keyOf? projects entry.project.path t d = some found)
      (same : sortKey found = sortKey key) : Declares path name key d.condition
  | clipSdk {entry : ProjectEntry} {t : Target} {found : Path}
      (registered : entry ∈ projects) (samePath : sortKey entry.project.path = sortKey path)
      (listed : t ∈ entry.project.targets) (named : t.name = name)
      (clip : t.product = .appClip) (implicit : s.settings.implicitAppClipSdk = true)
      (located : s.locator SystemSdk.appClip .ios .required .system = .ok found)
      (same : sortKey (NodeKey.sdk SystemSdk.appClip found .required .system) = sortKey key) :
      Declares path name key (some (.only .ios))

/-- Some target declares an xcframework under the key `wrapper` that holds `executable`. -/
def Wraps (wrapper executable : NodeKey) : Prop :=
  ∃ entry ∈ projects, ∃ t ∈ entry.project.targets, ∃ path status condition facts macroPath,
    .xcframework path status condition ∈ t.dependencies ∧
      s.inspector.xcframework path = .ok facts ∧ facts.macroPath = some macroPath ∧
      sortKey (NodeKey.prebuilt (facts.binary path status)) = sortKey wrapper ∧
      sortKey (NodeKey.macroExecutable macroPath) = sortKey executable

/-- A question that the target needs an answer to fails. -/
inductive Fails (t : Target) : Prop where
  | framework {path : Path} {status : LinkStatus} {condition : Option Condition}
      {e : InspectionError} (declared : .framework path status condition ∈ t.dependencies)
      (failed : s.inspector.framework path = .error e)
  | library {path headers : Path} {moduleMap : Option Path} {condition : Option Condition}
      {e : InspectionError} (declared : .library path headers moduleMap condition ∈ t.dependencies)
      (failed : s.inspector.library path headers moduleMap = .error e)
  | xcframework {path : Path} {status : LinkStatus} {condition : Option Condition}
      {e : InspectionError} (declared : .xcframework path status condition ∈ t.dependencies)
      (failed : s.inspector.xcframework path = .error e)
  | sdk {name : String} {status : LinkStatus} {condition : Option Condition} {platform : Platform}
      {e : InspectionError} (declared : .sdk name status condition ∈ t.dependencies)
      (main : t.mainPlatform? = some platform)
      (failed : s.locator name platform status .system = .error e)
  | xctest {platform : Platform} {e : InspectionError} (declared : .xctest ∈ t.dependencies)
      (main : t.mainPlatform? = some platform)
      (failed : s.locator SystemSdk.xctest platform .required .developer = .error e)
  | clipSdk {e : InspectionError} (clip : t.product = .appClip)
      (implicit : s.settings.implicitAppClipSdk = true)
      (failed : s.locator SystemSdk.appClip .ios .required .system = .error e)

structure Assembled (g : Graph) : Prop where
  edges : ∀ e ∈ g.wiring.edges, ∃ l ∈ g.wiring.links, g.wiring.link? e = some l
  single : g.wiring.links.Pairwise fun l m => ¬ l.Joins m.source m.target
  fromTarget : ∀ path name key,
    (∃ l ∈ g.wiring.links, l.Joins (.ofTarget path name) key) ↔
      ∃ c, s.Declares projects path name key c
  unconditional : ∀ l ∈ g.wiring.links, ∀ path name key, l.Joins (.ofTarget path name) key →
    (l.condition = none ↔ s.Declares projects path name key none)
  conditional : ∀ l ∈ g.wiring.links, ∀ path name key, l.Joins (.ofTarget path name) key →
    ∀ c, l.condition = some c → ∀ p, c.contains p = true ↔
      ∃ c', s.Declares projects path name key (some c') ∧ c'.contains p = true
  fromWrapper : ∀ wrapper executable, s.Wraps projects wrapper executable →
    ∃ l ∈ g.wiring.links, l.Joins wrapper executable ∧ l.condition = none ∧
      ∀ m ∈ g.wiring.links, sortKey m.source = sortKey wrapper → m = l
  fromOthers : ∀ l ∈ g.wiring.links,
    l.source.isTarget = true ∨ s.Wraps projects l.source l.target
  nodes : ∀ k, k ∈ g.wiring.keys.map sortKey ↔
    (∃ entry ∈ projects, ∃ t ∈ entry.project.targets,
      sortKey (NodeKey.ofTarget entry.project.path t.name) = k) ∨
    ∃ l ∈ g.wiring.links, sortKey l.source = k ∨ sortKey l.target = k

end

/-! ## Failures -/

section
variable {s : Sources} {projects : ProjectTable}

theorem Fails.not_resolves {t : Target} (h : s.Fails t) (path : Path) :
    ¬ s.Resolves projects path t := by
  intro hresolves
  cases h with
  | framework declared failed =>
    have := hresolves.dependencies _ declared
    simp [keyOf?, failed, Except.toOption] at this
  | library declared failed =>
    have := hresolves.dependencies _ declared
    simp [keyOf?, failed, Except.toOption] at this
  | xcframework declared failed =>
    have := hresolves.dependencies _ declared
    simp [keyOf?, failed, Except.toOption] at this
  | sdk declared main failed =>
    have := hresolves.dependencies _ declared
    simp [keyOf?, sdkKey?, main, failed, Except.toOption] at this
  | xctest declared main failed =>
    have := hresolves.dependencies _ declared
    simp [keyOf?, sdkKey?, main, failed, Except.toOption] at this
  | clipSdk clip implicit failed =>
    have := hresolves.clipSdk (by simp [addsClipSdk, clip, implicit])
    simp [clipSdkKey?, sdkKey?, failed, Except.toOption] at this

/-! ## Declared links -/

theorem mem_dependencyLinks {path : Path} {t : Target} {d : Dependency} {l : Link} :
    l ∈ s.dependencyLinks projects path t d ↔ ∃ key, s.keyOf? projects path t d = some key ∧
      ((∃ executable, s.macroOf? d = some executable ∧ l = ⟨key, executable, none⟩) ∨
        l = ⟨.ofTarget path t.name, key, d.condition⟩) := by
  simp only [dependencyLinks, macroLinks, List.mem_flatMap, Option.mem_toList,
    List.mem_append, List.mem_map, List.mem_singleton, eq_comm (b := l)]

theorem mem_declaredLinks {l : Link} : l ∈ s.declaredLinks projects ↔
    ∃ entry ∈ projects, ∃ t ∈ entry.project.targets,
      (∃ d ∈ t.dependencies, l ∈ s.dependencyLinks projects entry.project.path t d) ∨
        l ∈ s.clipLinks entry.project.path t := by
  simp only [declaredLinks, targetLinks, List.mem_flatMap, List.mem_append]

theorem toOption_eq_some {α : Type} {result : Except InspectionError α} {x : α} :
    result.toOption = some x ↔ result = .ok x := by
  cases result <;> simp [Except.toOption]

theorem clipSdkKey?_eq_some {t : Target} {key : NodeKey} : s.clipSdkKey? t = some key ↔
    ∃ found, s.locator SystemSdk.appClip .ios .required .system = .ok found ∧
      .sdk SystemSdk.appClip found .required .system = key := by
  simp [clipSdkKey?, sdkKey?, Option.bind_eq_some_iff, toOption_eq_some]

theorem mem_clipLinks {path : Path} {t : Target} {l : Link} : l ∈ s.clipLinks path t ↔
    t.product = .appClip ∧ s.settings.implicitAppClipSdk = true ∧
      ∃ found, s.locator SystemSdk.appClip .ios .required .system = .ok found ∧
        ⟨.ofTarget path t.name, .sdk SystemSdk.appClip found .required .system,
          some (.only .ios)⟩ = l := by
  by_cases hadds : s.addsClipSdk t = true
  · have hclip : t.product = .appClip ∧ s.settings.implicitAppClipSdk = true := by
      simpa [addsClipSdk] using hadds
    simp [clipLinks, hadds, hclip, clipSdkKey?_eq_some]
  · have hclip : ¬ (t.product = .appClip ∧ s.settings.implicitAppClipSdk = true) := by
      simpa [addsClipSdk] using hadds
    simp only [clipLinks, hadds, ← and_assoc, hclip]
    simp

theorem macroOf?_eq_some {path : Path} {t : Target} {d : Dependency} {key executable : NodeKey}
    (hkey : s.keyOf? projects path t d = some key) (h : s.macroOf? d = some executable) :
    ∃ wrapper status condition facts macroPath, d = .xcframework wrapper status condition ∧
      s.inspector.xcframework wrapper = .ok facts ∧ facts.macroPath = some macroPath ∧
      key = .prebuilt (facts.binary wrapper status) ∧ executable = .macroExecutable macroPath := by
  cases d with
  | xcframework wrapper status condition =>
    obtain ⟨facts, hfacts, h⟩ := Option.bind_eq_some_iff.1 h
    obtain ⟨macroPath, hheld, rfl⟩ := Option.map_eq_some_iff.1 h
    rw [keyOf?, hfacts] at hkey
    cases hkey
    exact ⟨wrapper, status, condition, facts, macroPath, rfl, toOption_eq_some.1 hfacts, hheld,
      rfl, rfl⟩
  | _ => cases h

theorem declares_iff {path : Path} {name : String} {key : NodeKey} {c : Option Condition} :
    s.Declares projects path name key c ↔
      ∃ d ∈ s.declaredLinks projects, d.Joins (.ofTarget path name) key ∧ d.condition = c := by
  constructor
  · intro h
    cases h with
    | @dependency entry t d found hentry hpath ht hname hd hfound htarget =>
      exact ⟨_, mem_declaredLinks.2 ⟨entry, hentry, t, ht, .inl ⟨d, hd,
        mem_dependencyLinks.2 ⟨found, hfound, .inr rfl⟩⟩⟩,
        ⟨NodeKey.sortKey_ofTarget.2 ⟨hpath, hname⟩, htarget⟩, rfl⟩
    | @clipSdk entry t found hentry hpath ht hname hclip himplicit hfound htarget =>
      exact ⟨_, mem_declaredLinks.2 ⟨entry, hentry, t, ht, .inr
        (mem_clipLinks.2 ⟨hclip, himplicit, found, hfound, rfl⟩)⟩,
        ⟨NodeKey.sortKey_ofTarget.2 ⟨hpath, hname⟩, htarget⟩, rfl⟩
  · rintro ⟨l, hl, ⟨hsource, htarget⟩, rfl⟩
    obtain ⟨entry, hentry, t, ht, ⟨d, hd, hl⟩ | hl⟩ := mem_declaredLinks.1 hl
    · obtain ⟨found, hfound, ⟨executable, hexecutable, rfl⟩ | rfl⟩ := mem_dependencyLinks.1 hl
      · obtain ⟨_, _, _, _, _, _, _, _, rfl, _⟩ := macroOf?_eq_some hfound hexecutable
        exact absurd hsource (NodeKey.sortKey_ofTarget_ne_prebuilt path name _)
      · obtain ⟨hpath, hname⟩ := NodeKey.sortKey_ofTarget.1 hsource
        exact .dependency hentry hpath ht hname hd hfound htarget
    · obtain ⟨hclip, himplicit, found, hfound, rfl⟩ := mem_clipLinks.1 hl
      obtain ⟨hpath, hname⟩ := NodeKey.sortKey_ofTarget.1 hsource
      exact .clipSdk hentry hpath ht hname hclip himplicit hfound htarget

theorem target_or_wraps {l : Link} (h : l ∈ s.declaredLinks projects) {a b : NodeKey}
    (hab : l.Joins a b) : a.isTarget = true ∨ s.Wraps projects a b := by
  have htarget {path : Path} {name : String}
      (hsource : sortKey (NodeKey.ofTarget path name) = sortKey a) : a.isTarget = true := by
    cases NodeKey.alike_of_sortKey hsource
    rfl
  obtain ⟨entry, hentry, t, ht, ⟨d, hd, hl⟩ | hl⟩ := mem_declaredLinks.1 h
  · obtain ⟨found, hfound, ⟨executable, hexecutable, rfl⟩ | rfl⟩ := mem_dependencyLinks.1 hl
    · obtain ⟨path, status, condition, facts, macroPath, rfl, hfacts, hheld, rfl, rfl⟩ :=
        macroOf?_eq_some hfound hexecutable
      exact .inr ⟨entry, hentry, t, ht, path, status, condition, facts, macroPath, hd, hfacts,
        hheld, hab.1, hab.2⟩
    · exact .inl (htarget hab.1)
  · obtain ⟨-, -, found, -, rfl⟩ := mem_clipLinks.1 hl
    exact .inl (htarget hab.1)

theorem exists_link_of_wraps {wrapper executable : NodeKey}
    (h : s.Wraps projects wrapper executable) :
    ∃ l ∈ s.declaredLinks projects, l.Joins wrapper executable ∧ l.condition = none := by
  obtain ⟨entry, hentry, t, ht, path, status, condition, facts, macroPath, hd, hfacts, hheld,
    hwrapper, hexecutable⟩ := h
  have hkey : s.keyOf? projects entry.project.path t (.xcframework path status condition) =
      some (.prebuilt (facts.binary path status)) := by
    rw [keyOf?, toOption_eq_some.2 hfacts]
    rfl
  have hinside : s.macroOf? (.xcframework path status condition) =
      some (.macroExecutable macroPath) := by
    rw [macroOf?, toOption_eq_some.2 hfacts, Option.bind_some, hheld]
    rfl
  exact ⟨_, mem_declaredLinks.2 ⟨entry, hentry, t, ht, .inl ⟨_, hd,
    mem_dependencyLinks.2 ⟨_, hkey, .inl ⟨_, hinside, rfl⟩⟩⟩⟩, ⟨hwrapper, hexecutable⟩, rfl⟩

theorem Wraps.isTarget_eq_false {wrapper executable key : NodeKey}
    (h : s.Wraps projects wrapper executable) (hsame : sortKey wrapper = sortKey key) :
    ¬ key.isTarget = true := by
  obtain ⟨_, _, _, _, _, _, _, _, _, _, _, _, hwrapper, _⟩ := h
  cases NodeKey.alike_of_sortKey (hwrapper.trans hsame)
  simp [NodeKey.isTarget, NodeKey.target?]

theorem Wraps.unique (hs : s.inspector.PathBlind) {wrapper wrapper' executable executable' : NodeKey}
    (h : s.Wraps projects wrapper executable) (h' : s.Wraps projects wrapper' executable')
    (hsame : sortKey wrapper = sortKey wrapper') : sortKey executable = sortKey executable' := by
  obtain ⟨_, _, _, _, path, status, _, facts, macroPath, _, hfacts, hheld, hwrapper,
    hexecutable⟩ := h
  obtain ⟨_, _, _, _, path', status', _, facts', macroPath', _, hfacts', hheld', hwrapper',
    hexecutable'⟩ := h'
  have hpath : sortKey path = sortKey path' := by
    have hkeys := hwrapper.trans (hsame.trans hwrapper'.symm)
    cases NodeKey.alike_of_sortKey hkeys with
    | prebuilt same => exact same.path
  have hanswers := hs.xcframework path path' hpath
  rw [hfacts, hfacts'] at hanswers
  have hmacros := XcframeworkFacts.sortKey_macroPath (Option.some.inj hanswers)
  rw [hheld, hheld'] at hmacros
  rw [← hexecutable, ← hexecutable',
    NodeKey.sortKey_macroExecutable (Option.some.inj hmacros)]

/-! ## Assembled graphs -/

theorem exists_iff_of_outline {ls ms : List Link} (h : ls.map Link.outline = ms.map Link.outline)
    (P : SortKey × SortKey × Option Condition → Prop) :
    (∃ l ∈ ls, P l.outline) ↔ ∃ l ∈ ms, P l.outline := by
  have hsame : (∃ o ∈ ls.map Link.outline, P o) ↔ ∃ o ∈ ms.map Link.outline, P o := by rw [h]
  simpa only [List.mem_map, exists_exists_and_eq_and] using hsame

section
variable {workspace : Workspace} {ls : List Link}
  (hls : ls.map Link.outline = (s.declaredLinks projects).map Link.outline)
include hls

theorem standsFor_ofCalls : (Draft.ofCalls workspace (s.assemblyCalls projects ls)).wiring.StandsFor
    (s.declaredLinks projects) := by
  intro x k l
  rw [depends_assemblyCalls]
  exact exists_iff_of_outline hls
    fun o => o.1 = k ∧ o.2.1 = l ∧ Condition.appliesAt o.2.2 x = true

theorem mem_keys_assembled {k : SortKey} :
    k ∈ (Draft.ofCalls workspace (s.assemblyCalls projects ls)).wiring.keys.map sortKey ↔
      (∃ entry ∈ projects, ∃ t ∈ entry.project.targets,
        sortKey (NodeKey.ofTarget entry.project.path t.name) = k) ∨
      ∃ l ∈ s.declaredLinks projects, sortKey l.source = k ∨ sortKey l.target = k := by
  rw [Draft.mem_keys_ofCalls]
  refine Iff.trans ?_ (or_congr_right (exists_iff_of_outline hls fun o => o.1 = k ∨ o.2.1 = k))
  simp only [mem_assemblyCalls]
  constructor
  · rintro ⟨c, rfl | ⟨entry, hentry, rfl⟩ | ⟨l, hl, rfl⟩, hk⟩
    · simp [DraftCall.mentioned] at hk
    · simp only [DraftCall.mentioned, List.mem_map, exists_exists_and_eq_and] at hk
      exact .inl ⟨entry, hentry, hk⟩
    · simp only [DraftCall.mentioned, List.map_cons, List.map_nil, List.mem_cons,
        List.not_mem_nil, or_false, eq_comm (a := k)] at hk
      exact .inr ⟨l, hl, hk⟩
  · rintro (⟨entry, hentry, t, ht, rfl⟩ | ⟨l, hl, hk⟩)
    · exact ⟨_, .inr (.inl ⟨entry, hentry, rfl⟩), List.mem_map_of_mem (List.mem_map_of_mem ht)⟩
    · have hends : sortKey l.source = k ∨ sortKey l.target = k := hk
      refine ⟨_, .inr (.inr ⟨l, hl, rfl⟩), ?_⟩
      simpa only [DraftCall.mentioned, List.map_cons, List.map_nil, List.mem_cons,
        List.not_mem_nil, or_false, eq_comm (a := k)] using hends

end

theorem assembled_of_standsFor (hs : s.inspector.PathBlind) {g : Graph} (hw : g.wiring.WellFormed)
    (hlinks : g.wiring.StandsFor (s.declaredLinks projects))
    (hkeys : ∀ k, k ∈ g.wiring.keys.map sortKey ↔
      (∃ entry ∈ projects, ∃ t ∈ entry.project.targets,
        sortKey (NodeKey.ofTarget entry.project.path t.name) = k) ∨
      ∃ l ∈ s.declaredLinks projects, sortKey l.source = k ∨ sortKey l.target = k) :
    s.Assembled projects g where
  edges _ he := hw.exists_link he
  single := hw.links_nodup.imp_of_mem fun hl hm hne hj => hne (hw.link_unique hl hm hj)
  fromTarget path name key := by
    simp only [hlinks.joins_iff, declares_iff]
    exact ⟨fun ⟨d, hd, hj⟩ => ⟨_, d, hd, hj, rfl⟩, fun ⟨_, d, hd, hj, _⟩ => ⟨d, hd, hj⟩⟩
  unconditional l hl path name key hj := by
    rw [hlinks.condition_eq_none_iff hw hl hj, declares_iff]
  conditional l hl path name key hj c hc p := by
    rw [hlinks.contains_iff hw hl hj hc]
    simp only [declares_iff]
    constructor
    · rintro ⟨d, hd, hdj, c', hcondition, hp⟩
      exact ⟨c', ⟨d, hd, hdj, hcondition⟩, hp⟩
    · rintro ⟨c', ⟨d, hd, hdj, hcondition⟩, hp⟩
      exact ⟨d, hd, hdj, c', hcondition, hp⟩
  fromWrapper wrapper executable h := by
    obtain ⟨d, hd, hdj, hnone⟩ := exists_link_of_wraps h
    obtain ⟨l, hl, hj⟩ := hlinks.joins_iff.2 ⟨d, hd, hdj⟩
    refine ⟨l, hl, hj, (hlinks.condition_eq_none_iff hw hl hj).2 ⟨d, hd, hdj, hnone⟩, ?_⟩
    intro m hm hsource
    obtain ⟨e, he, hej⟩ := hlinks.joins_iff.1 ⟨m, hm, rfl, rfl⟩
    rcases target_or_wraps he hej with htarget | hwraps
    · exact absurd htarget (h.isTarget_eq_false hsource.symm)
    · have htarget := hwraps.unique hs h hsource
      exact hw.link_unique hm hl ⟨hsource.trans hj.1.symm, htarget.trans hj.2.symm⟩
  fromOthers l hl := by
    obtain ⟨d, hd, hj⟩ := hlinks.joins_iff.1 ⟨l, hl, rfl, rfl⟩
    exact target_or_wraps hd hj
  nodes k := by rw [hkeys, hlinks.ends_iff]

end

/-- Whatever the manifests say, an assembled graph has what they declare and nothing else, and
there is none if a question that a target needs an answer to fails. -/
theorem assembles_declared_links (s : Sources) (hs : s.inspector.PathBlind)
    (workspace : Workspace) (projects : List Project) :
    let table := ProjectTable.ofList projects
    let outcome := (s.assemble workspace projects).graph
    (∀ g, outcome = .ok g → s.Assembled table g) ∧
      ((∃ entry ∈ table, ∃ t ∈ entry.project.targets, s.Fails t) →
        ∃ fault, outcome = .error fault) := by
  intro table outcome
  constructor
  · intro g h
    obtain ⟨-, -, final, hrun, hbuild⟩ := assemble_eq_ok.1 h
    obtain ⟨-, ls, hls, hdraft⟩ := gives_start hs hrun
    have hw := Draft.wellFormed_ofCalls workspace (s.assemblyCalls table ls)
    have hspec := Draft.build_spec hw
    rw [← hdraft, hbuild, hdraft] at hspec
    obtain ⟨-, rfl⟩ := hspec
    exact assembled_of_standsFor hs hw (standsFor_ofCalls hls) fun _ => mem_keys_assembled hls
  · rintro ⟨entry, hentry, t, ht, hfails⟩
    cases h : outcome with
    | error fault => exact ⟨fault, rfl⟩
    | ok g =>
      obtain ⟨-, -, final, hrun, -⟩ := assemble_eq_ok.1 h
      obtain ⟨hresolves, -⟩ := gives_start hs hrun
      exact absurd (hresolves entry hentry t ht) (hfails.not_resolves _)

end Sources

/-! ## An app clip with a wrapped macro -/

def clipSources : Sources where
  inspector := ArtifactCatalog.inspector {
    xcframeworks := [(⟨"/X.xcframework"⟩,
      { info := ⟨[]⟩, primaryBinaryPath := ⟨"/X/libX.a"⟩, linking := .static, mergeable := false,
        macroPath := some ⟨"/X/macro"⟩ })] }
  locator := SystemSdk.locator ⟨"/P"⟩

def clipProjects (more : List Dependency) : List Project :=
  [⟨⟨"/w"⟩, "W", .localProject, [{
    name := "Clip"
    product := .appClip
    dependencies := [.xcframework ⟨"/X.xcframework"⟩ .required none,
      .xcframework ⟨"//X.xcframework/"⟩ .required (some (.only .ios))] ++ more }]⟩]

def clipWorkspace : Workspace :=
  ⟨⟨"/w"⟩, "W", []⟩

theorem checkDeclaredCycles_clip :
    (ProjectTable.ofList (clipProjects [])).checkDeclaredCycles = .ok () := by
  let table := ProjectTable.ofList (clipProjects [])
  have hroots : table.targetIds = [⟨⟨"/w"⟩, "Clip"⟩] := by decide
  have hdeclared : table.declaredTargets ⟨⟨"/w"⟩, "Clip"⟩ = [] := by decide
  have hnone : table.declaredCycle? = none := by
    rw [ProjectTable.declaredCycle?, hroots]
    simp [searchCycle, CycleSearch.runAll, hdeclared, CycleSearch.Progress.run,
      CycleSearch.Progress.isFinished]
  rw [ProjectTable.checkDeclaredCycles, hnone]

theorem assemble_clip :
    ∃ g, (clipSources.assemble clipWorkspace (clipProjects [])).graph = .ok g ∧
      g.wiring.links.map (·.condition) = [none, none, some (.only .ios)] := by
  let table := ProjectTable.ofList (clipProjects [])
  let run := (clipSources.addTargets table).run.run (clipSources.start clipWorkspace table)
  have hrun : Assembling.Gives (clipSources.addTargets table)
      (clipSources.start clipWorkspace table) () run.2 :=
    Prod.ext (by decide +kernel : run.1 = .ok ()) rfl
  obtain ⟨-, ls, -, hdraft⟩ := Sources.gives_start (ArtifactCatalog.pathBlind_inspector _) hrun
  have hw : run.2.draft.wiring.WellFormed := hdraft ▸ Draft.wellFormed_ofCalls ..
  have hbuild := Draft.build_of_checks hw (by decide +kernel) (by decide +kernel) (by decide +kernel)
  exact ⟨_, Sources.assemble_eq_ok.2 ⟨rfl, checkDeclaredCycles_clip, run.2, hrun, hbuild⟩,
    by decide +kernel⟩

theorem assembled_clip :
    clipSources.inspector.PathBlind ∧
      (∃ g, (clipSources.assemble clipWorkspace (clipProjects [])).graph = .ok g ∧
        clipSources.Assembled (.ofList (clipProjects [])) g ∧
        g.wiring.links.map (·.condition) = [none, none, some (.only .ios)]) ∧
      ∃ fault, (clipSources.assemble clipWorkspace
        (clipProjects [.framework ⟨"/F.framework"⟩ .required none])).graph = .error fault := by
  have hs : clipSources.inspector.PathBlind := ArtifactCatalog.pathBlind_inspector _
  refine ⟨hs, ?_, ?_⟩
  · obtain ⟨g, hg, hconditions⟩ := assemble_clip
    exact ⟨g, hg, (clipSources.assembles_declared_links hs _ _).1 g hg, hconditions⟩
  · have hframework : Dependency.framework ⟨"/F.framework"⟩ .required none ∈
        [Dependency.framework ⟨"/F.framework"⟩ .required none] := List.mem_singleton_self _
    exact (clipSources.assembles_declared_links hs clipWorkspace _).2
      ⟨_, List.mem_singleton_self _, _, List.mem_singleton_self _,
        .framework (List.mem_append_right _ hframework) rfl⟩

end BuildGraph
