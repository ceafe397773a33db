import BuildGraph.Assembly
import BuildGraph.Proofs.NodeKey
import BuildGraph.Proofs.Paired

/-!
# Answers that are kept

An assembly asks about an artifact once per path and keeps the answer. If the sources do
not distinguish spellings of one path, it does not matter whether an answer was kept or
given again: it leads to the same key.
-/

namespace BuildGraph

/-! ## Facts up to the spelling of paths -/

instance : Sortable FrameworkFacts where
  sortKey f := .ofList [sortKey f.binaryPath, sortKey f.linking, sortKey f.architectures,
    sortKey f.dsymPath, sortKey f.bcsymbolmapPaths]

instance : Sortable LibraryFacts where
  sortKey f := .ofList [sortKey f.linking, sortKey f.architectures]

instance : Sortable XcframeworkFacts where
  sortKey f := .ofList [sortKey f.info, sortKey f.primaryBinaryPath, sortKey f.linking,
    .ofBool f.mergeable, sortKey f.macroPath]

theorem FrameworkFacts.sortKey_binary {a b : FrameworkFacts} (h : sortKey a = sortKey b)
    (path : Path) (status : LinkStatus) :
    sortKey (a.binary path status) = sortKey (b.binary path status) := by
  have hfields := SortKey.ofList_inj.1 h
  simp only [List.cons.injEq, and_true] at hfields
  obtain ⟨hbinary, hlinking, harchitectures, hdsym, hmaps⟩ := hfields
  simp only [Prebuilt.sortKey_eq, binary, hbinary, hlinking, harchitectures, hdsym, hmaps]

theorem LibraryFacts.sortKey_binary {a b : LibraryFacts} (h : sortKey a = sortKey b)
    (path headers : Path) (moduleMap : Option Path) :
    sortKey (a.binary path headers moduleMap) = sortKey (b.binary path headers moduleMap) := by
  have hfields := SortKey.ofList_inj.1 h
  simp only [List.cons.injEq, and_true] at hfields
  obtain ⟨hlinking, harchitectures⟩ := hfields
  simp only [Prebuilt.sortKey_eq, binary, hlinking, harchitectures]

theorem XcframeworkInfo.architectures_congr {i j : XcframeworkInfo} (h : sortKey i = sortKey j) :
    i.architectures = j.architectures := by
  have hslice {s t : XcframeworkSlice} (hst : sortKey s = sortKey t) :
      s.architectures.toList = t.architectures.toList := by
    have hfields := SortKey.ofList_inj.1 hst
    simp only [List.cons.injEq] at hfields
    have hinj : Function.Injective (sortKey : Architecture → SortKey) := by
      intro a b
      cases a <;> cases b <;> decide
    exact List.map_injective_iff.2 hinj (OrderedSet.sortKey_inj.1 hfields.2.2.2.1)
  have hslices : List.Forall₂ (fun s t => sortKey s = sortKey t) i.slices j.slices :=
    forall₂_iff_map_eq.2 (SortKey.ofList_inj.1 h)
  have harchitectures : i.slices.map (·.architectures.toList) = j.slices.map (·.architectures.toList) :=
    forall₂_iff_map_eq.1 (hslices.imp fun _ _ => hslice)
  rw [architectures, architectures, List.flatMap_def, List.flatMap_def, harchitectures]

theorem XcframeworkFacts.sortKey_binary {a b : XcframeworkFacts} (h : sortKey a = sortKey b)
    (path : Path) (status : LinkStatus) :
    sortKey (a.binary path status) = sortKey (b.binary path status) := by
  have hfields := SortKey.ofList_inj.1 h
  simp only [List.cons.injEq, ofBool_inj, and_true] at hfields
  obtain ⟨hinfo, hbinary, hlinking, hmergeable, -⟩ := hfields
  have horigin : sortKey (BinaryOrigin.xcframework a.info) = sortKey (BinaryOrigin.xcframework b.info) :=
    congrArg (fun k => SortKey.variant 2 [k]) hinfo
  have harchitectures := XcframeworkInfo.architectures_congr hinfo
  simp only [Prebuilt.sortKey_eq, binary, hbinary, hlinking, harchitectures, horigin, hmergeable]

theorem XcframeworkFacts.sortKey_macroPath {a b : XcframeworkFacts} (h : sortKey a = sortKey b) :
    a.macroPath.map sortKey = b.macroPath.map sortKey := by
  have hfields := SortKey.ofList_inj.1 h
  simp only [List.cons.injEq, and_true] at hfields
  exact sortKey_option.1 hfields.2.2.2.2

/-! ## Successful steps -/

namespace Assembling

def Gives {α : Type} (m : Assembling α) (a : Assembly) (x : α) (a' : Assembly) : Prop :=
  m.run.run a = (.ok x, a')

section
variable {α β : Type} {a a' : Assembly}

theorem run_bind {m : Assembling α} {f : α → Assembling β} : (m >>= f).run.run a =
    match m.run.run a with
    | (.ok x, b) => (f x).run.run b
    | (.error e, b) => (.error e, b) := by
  change (m.run >>= ExceptT.bindCont f).run a = _
  rw [StateT.run_bind]
  change (match m.run.run a with | (r, b) => (ExceptT.bindCont f r).run b) = _
  rcases m.run.run a with ⟨_ | x, b⟩ <;> rfl

theorem gives_bind {m : Assembling α} {f : α → Assembling β} {y : β} :
    Gives (m >>= f) a y a' ↔ ∃ x b, Gives m a x b ∧ Gives (f x) b y a' := by
  unfold Gives
  rw [run_bind]
  constructor
  · intro h
    rcases hm : m.run.run a with ⟨_ | x, b⟩
    · rw [hm] at h
      cases h
    · rw [hm] at h
      exact ⟨x, b, rfl, h⟩
  · rintro ⟨x, b, hm, h⟩
    rw [hm]
    exact h

theorem gives_pure {x y : α} : Gives (pure x) a y a' ↔ x = y ∧ a = a' := by
  change (Except.ok x, a) = (Except.ok y, a') ↔ _
  simp

theorem gives_get {b : Assembly} : Gives get a b a' ↔ a = b ∧ a = a' := by
  change (Except.ok a, a) = (Except.ok b, a') ↔ _
  simp

theorem gives_modify {f : Assembly → Assembly} {u : Unit} :
    Gives (modify f) a u a' ↔ f a = a' := by
  change (Except.ok (), f a) = (Except.ok u, a') ↔ _
  simp

theorem not_gives_throw {e : Fault} {x : α} : ¬ Gives (throw e) a x a' := by
  intro h
  cases h

end

end Assembling

/-! ## Sources that do not distinguish spellings -/

/-- Answers depend on the components of a path only, and those about libraries on nothing else.
How a failure is worded does not matter. -/
structure ArtifactInspector.PathBlind (i : ArtifactInspector) : Prop where
  framework : ∀ p q, sortKey p = sortKey q →
    (i.framework p).toOption.map sortKey = (i.framework q).toOption.map sortKey
  library : ∀ p q headers headers' moduleMap moduleMap', sortKey p = sortKey q →
    (i.library p headers moduleMap).toOption.map sortKey =
      (i.library q headers' moduleMap').toOption.map sortKey
  xcframework : ∀ p q, sortKey p = sortKey q →
    (i.xcframework p).toOption.map sortKey = (i.xcframework q).toOption.map sortKey

namespace ArtifactCatalog

theorem lookup?_congr {α : Type} {entries : List (Path × α)} {p q : Path}
    (h : sortKey p = sortKey q) : lookup? entries p = lookup? entries q := by
  simp only [lookup?, same, h]

theorem lookup?_cons {α : Type} (path : Path) (facts : α) (entries : List (Path × α)) (p : Path) :
    lookup? ((path, facts) :: entries) p =
      if same path p then some facts else lookup? entries p := by
  unfold lookup?
  rw [List.find?_cons]
  cases h : same path p with
  | true => rfl
  | false => rfl

theorem toOption_orNotFound {α : Type} (path : Path) (facts : Option α) :
    (orNotFound path facts).toOption = facts := by
  cases facts <;> rfl

theorem pathBlind_inspector (c : ArtifactCatalog) : c.inspector.PathBlind where
  framework p q h := by simp only [inspector, toOption_orNotFound, lookup?_congr h]
  library p q _ _ _ _ h := by simp only [inspector, toOption_orNotFound, lookup?_congr h]
  xcframework p q h := by simp only [inspector, toOption_orNotFound, lookup?_congr h]

def Right {α : Type} [Sortable α] (entries : List (Path × α)) (answer : Path → Option SortKey) :
    Prop :=
  ∀ path facts, lookup? entries path = some facts → answer path = some (sortKey facts)

theorem Right.cons {α : Type} [Sortable α] {entries : List (Path × α)}
    {answer : Path → Option SortKey} (h : Right entries answer)
    (hblind : ∀ p q, sortKey p = sortKey q → answer p = answer q) {path : Path} {facts : α}
    (hfacts : answer path = some (sortKey facts)) : Right ((path, facts) :: entries) answer := by
  intro p found hfound
  rw [lookup?_cons] at hfound
  by_cases hsame : same path p = true
  · rw [if_pos hsame] at hfound
    cases hfound
    rw [← hblind path p (same_iff.1 hsame), hfacts]
  · rw [if_neg hsame] at hfound
    exact h p found hfound

structure RightFor (c : ArtifactCatalog) (i : ArtifactInspector) : Prop where
  frameworks : Right c.frameworks fun p => (i.framework p).toOption.map sortKey
  libraries : ∀ headers moduleMap,
    Right c.libraries fun p => (i.library p headers moduleMap).toOption.map sortKey
  xcframeworks : Right c.xcframeworks fun p => (i.xcframework p).toOption.map sortKey

theorem rightFor_empty (i : ArtifactInspector) : ({} : ArtifactCatalog).RightFor i :=
  ⟨fun _ _ h => (nomatch h), fun _ _ _ _ h => (nomatch h), fun _ _ h => (nomatch h)⟩

end ArtifactCatalog

/-! ## Inquiries -/

namespace Sources

open Assembling ArtifactCatalog

section
variable {a a' : Assembly} {α : Type}

theorem gives_ask {inquiry : Inquiry} {kind : ArtifactKind} {path : Path}
    {result : Except InspectionError α} {x : α} (h : Gives (ask inquiry kind path result) a x a') :
    result = .ok x ∧ a'.draft = a.draft ∧ a'.known = a.known := by
  obtain ⟨_, b, hb, h⟩ := gives_bind.1 h
  obtain rfl := gives_modify.1 hb
  match result with
  | .ok y =>
    obtain ⟨rfl, rfl⟩ := gives_pure.1 h
    exact ⟨rfl, rfl, rfl⟩
  | .error (.notFound _) => exact absurd h not_gives_throw
  | .error (.unsupported _) => exact absurd h not_gives_throw

theorem gives_askOnce {entries : ArtifactCatalog → List (Path × α)}
    {add : ArtifactCatalog → Path → α → ArtifactCatalog} {inquiry : Inquiry} {kind : ArtifactKind}
    {path : Path} {result : Except InspectionError α} {x : α}
    (h : Gives (askOnce entries add inquiry kind path result) a x a') :
    a'.draft = a.draft ∧ (lookup? (entries a.known) path = some x ∧ a'.known = a.known ∨
      result = .ok x ∧ a'.known = add a.known path x) := by
  obtain ⟨c, b, hb, h⟩ := gives_bind.1 h
  obtain ⟨rfl, rfl⟩ := gives_get.1 hb
  cases hfound : lookup? (entries a.known) path with
  | some facts =>
    rw [hfound] at h
    obtain ⟨rfl, rfl⟩ := gives_pure.1 h
    exact ⟨rfl, .inl ⟨rfl, rfl⟩⟩
  | none =>
    rw [hfound] at h
    obtain ⟨facts, b, hb, h⟩ := gives_bind.1 h
    obtain ⟨hresult, hdraft, hknown⟩ := gives_ask hb
    obtain ⟨_, d, hd, h⟩ := gives_bind.1 h
    obtain rfl := gives_modify.1 hd
    obtain ⟨rfl, rfl⟩ := gives_pure.1 h
    exact ⟨hdraft, .inr ⟨hresult, by rw [hknown]⟩⟩

end

section
variable {s : Sources} (hs : s.inspector.PathBlind) {a a' : Assembly}
  (ha : a.known.RightFor s.inspector) {path : Path}
include hs ha

theorem gives_framework {facts : FrameworkFacts} (h : Gives (s.framework path) a facts a') :
    (s.inspector.framework path).toOption.map sortKey = some (sortKey facts) ∧
      a'.draft = a.draft ∧ a'.known.RightFor s.inspector := by
  obtain ⟨hdraft, ⟨hfound, hknown⟩ | ⟨hresult, hknown⟩⟩ := gives_askOnce h
  · exact ⟨ha.frameworks path facts hfound, hdraft, hknown ▸ ha⟩
  · have hanswer : (s.inspector.framework path).toOption.map sortKey = some (sortKey facts) := by
      rw [hresult]
      rfl
    refine ⟨hanswer, hdraft, ?_⟩
    rw [hknown]
    exact ⟨ha.frameworks.cons hs.framework hanswer, ha.libraries, ha.xcframeworks⟩

theorem gives_library {headers : Path} {moduleMap : Option Path} {facts : LibraryFacts}
    (h : Gives (s.library path headers moduleMap) a facts a') :
    (s.inspector.library path headers moduleMap).toOption.map sortKey = some (sortKey facts) ∧
      a'.draft = a.draft ∧ a'.known.RightFor s.inspector := by
  obtain ⟨hdraft, ⟨hfound, hknown⟩ | ⟨hresult, hknown⟩⟩ := gives_askOnce h
  · exact ⟨ha.libraries headers moduleMap path facts hfound, hdraft, hknown ▸ ha⟩
  · have hanswer (headers' : Path) (moduleMap' : Option Path) :
        (s.inspector.library path headers' moduleMap').toOption.map sortKey =
          some (sortKey facts) := by
      rw [hs.library path path headers' headers moduleMap' moduleMap rfl, hresult]
      rfl
    refine ⟨hanswer headers moduleMap, hdraft, ?_⟩
    rw [hknown]
    exact ⟨ha.frameworks, fun headers' moduleMap' => (ha.libraries headers' moduleMap').cons
      (fun p q => hs.library p q _ _ _ _) (hanswer headers' moduleMap'), ha.xcframeworks⟩

theorem gives_xcframework {facts : XcframeworkFacts} (h : Gives (s.xcframework path) a facts a') :
    (s.inspector.xcframework path).toOption.map sortKey = some (sortKey facts) ∧
      a'.draft = a.draft ∧ a'.known.RightFor s.inspector := by
  obtain ⟨hdraft, ⟨hfound, hknown⟩ | ⟨hresult, hknown⟩⟩ := gives_askOnce h
  · exact ⟨ha.xcframeworks path facts hfound, hdraft, hknown ▸ ha⟩
  · have hanswer : (s.inspector.xcframework path).toOption.map sortKey = some (sortKey facts) := by
      rw [hresult]
      rfl
    refine ⟨hanswer, hdraft, ?_⟩
    rw [hknown]
    exact ⟨ha.frameworks, ha.libraries, ha.xcframeworks.cons hs.xcframework hanswer⟩

end

end Sources

end BuildGraph
