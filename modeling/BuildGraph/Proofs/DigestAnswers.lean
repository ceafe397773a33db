import BuildGraph.Proofs.Coherence
import BuildGraph.Proofs.DigestInput

/-!
# What a fingerprint says about answers

Equal fingerprint inputs make the wirings of two graphs agree, and no more. The answers
depend on the descriptions of the targets too, which the input does not cover: with one
input they agree where the projects agree, and an app may embed a framework on one side and
nothing on the other where they do not.
-/

namespace BuildGraph

namespace Wiring

theorem WellFormed.agree {w v : Wiring} (hw : w.WellFormed) (hv : v.WellFormed)
    (hkeys : ∀ k, k ∈ w.keys ↔ k ∈ v.keys) (hlinks : ∀ l, l ∈ w.links ↔ l ∈ v.links) :
    w.Agree v := by
  refine ⟨hw, hv, fun k => ?_, fun x k l => ?_⟩
  · simp only [List.mem_map, hkeys]
  · simp only [depends_iff_link, hlinks]

end Wiring

/-- With one fingerprint input and the same targets in the projects, all targets have the same
answers, up to what the first key of an artifact keeps. With artifacts that are described
once they have equal answers. -/
theorem Graph.IsBuilt.answers_of_digest {g h : Graph} (hg : g.IsBuilt) (hh : h.IsBuilt)
    (hdigest : g.wiring.digestInput.toUTF8 = h.wiring.digestInput.toUTF8)
    (hprojects : List.Forall₂ ProjectEntry.Agree g.projects h.projects) (path : Path)
    (name : String) :
    Option.Rel Consumer.SameAnswers (g.consumer? path name) (h.consumer? path name) ∧
      (NodeKey.Coherent g.wiring.keys →
        Option.Rel Consumer.EqualAnswers (g.consumer? path name) (h.consumer? path name)) := by
  obtain ⟨hkeys, hlinks⟩ := (hg.sound.1.digestInput_inj hh.sound.1).1
    (String.toByteArray_inj.1 (by simpa using hdigest))
  have hagree : g.Agree h := ⟨hg, hh, hg.sound.1.agree hh.sound.1 hkeys hlinks, hprojects⟩
  have hsub : h.wiring.keys ⊆ g.wiring.keys := fun k hk => (hkeys k).2 hk
  constructor
  · exact rel_of_rel (hagree.consumer? (rfl : sortKey path = sortKey path) name)
      fun _ _ _ _ hcd => hcd.sameAnswers
  · exact fun hcoherent => hagree.equalAnswers hcoherent (List.Subset.refl _) hsub path name

/-! ## One fingerprint input -/

theorem coherent_palette :
    NodeKey.Coherent (paletteGraph ⟨"/A.bundle"⟩ ⟨"/B.bundle"⟩ none).wiring.keys := by
  have hkeys : (paletteGraph ⟨"/A.bundle"⟩ ⟨"/B.bundle"⟩ none).wiring.keys =
      [.ofTarget ⟨"/w"⟩ "App", .bundle ⟨"/A.bundle"⟩, .bundle ⟨"/B.bundle"⟩] := by decide
  rw [hkeys]
  refine ⟨fun k hk l hl i j hi hj hij => ?_, fun p q hp _ _ => ?_⟩
  · simp only [List.mem_cons, List.not_mem_nil, or_false] at hk hl
    rcases hk with rfl | rfl | rfl <;> rcases hl with rfl | rfl | rfl <;> cases hi <;> cases hj
    all_goals first | rfl | exact absurd hij (by decide)
  · simp [NodeKey.ofTarget] at hp

theorem answers_palette :
    let g := paletteGraph ⟨"/A.bundle"⟩ ⟨"/B.bundle"⟩ none
    let h := paletteGraph ⟨"/B.bundle"⟩ ⟨"/A.bundle"⟩ none
    g.IsBuilt ∧ h.IsBuilt ∧ g.wiring.digestInput.toUTF8 = h.wiring.digestInput.toUTF8 ∧
      List.Forall₂ ProjectEntry.Agree g.projects h.projects ∧ NodeKey.Coherent g.wiring.keys ∧
      Option.Rel Consumer.EqualAnswers (g.consumer? ⟨"/w"⟩ "App") (h.consumer? ⟨"/w"⟩ "App") := by
  intro g h
  obtain ⟨hg, hh, -⟩ := isBuilt_palette
  have hdigest : g.wiring.digestInput = h.wiring.digestInput :=
    (hg.sound.1.digestInput_inj hh.sound.1).2 swapped_palette
  have hprojects : List.Forall₂ ProjectEntry.Agree g.projects h.projects :=
    .cons ⟨rfl, rfl, .refl _, by decide⟩ .nil
  exact ⟨hg, hh, congrArg _ hdigest, hprojects, coherent_palette,
    (Graph.IsBuilt.answers_of_digest hg hh (congrArg _ hdigest) hprojects _ _).2
      coherent_palette⟩

def needing (product : Product) : Draft :=
  .ofCalls ⟨⟨"/w"⟩, "W", []⟩ [
    .register ⟨⟨"/w"⟩, "W", .localProject,
      [{ name := "App", product := .app }, { name := "Kit", product }]⟩,
    .declare (.ofTarget ⟨"/w"⟩ "App") (.ofTarget ⟨"/w"⟩ "Kit") none]

def needingGraph (product : Product) : Graph :=
  ⟨(needing product).workspace, (needing product).projects, (needing product).wiring⟩

/-- The product of a dependency is not in the input, and it decides what is linked and
embedded. -/
theorem stale_needing :
    let g := needingGraph .framework
    let h := needingGraph .staticLibrary
    let linked (g : Graph) : Option (List SortKey) :=
      (g.consumer? ⟨"/w"⟩ "App").map fun c => c.linked.toList.map sortKey
    let embedded (g : Graph) : Option (List SortKey) :=
      (g.consumer? ⟨"/w"⟩ "App").map fun c => c.embedded.toList.map sortKey
    g.IsBuilt ∧ h.IsBuilt ∧ g.workspace = h.workspace ∧
      g.wiring.digestInput.toUTF8 = h.wiring.digestInput.toUTF8 ∧
      linked g ≠ linked h ∧ embedded g ≠ embedded h :=
  ⟨Draft.isBuilt_of_checks (by decide) (by decide) (by decide),
    Draft.isBuilt_of_checks (by decide) (by decide) (by decide),
    rfl, rfl, by decide +kernel, by decide +kernel⟩

end BuildGraph
