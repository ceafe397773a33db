import BuildGraph.Proofs.Reordering

/-!
# Artifacts that are described once

Where all keys of one artifact have the reference keep the same, it does not matter which
of them came first. With one spelling of each macro executable, answers do not depend on
the order of the calls at all.
-/

namespace BuildGraph

def NodeKey.kept? : NodeKey → Option SortKey
  | .prebuilt b => some (sortKey (Reference.ofBinary b none).kept)
  | .sdk _ path status source => some (sortKey (Reference.sdk path status source none).kept)
  | .bundle path => some (sortKey (Reference.bundle path none).kept)
  | _ => none

/-- The keys describe each artifact once, whatever the spelling of its path. -/
structure NodeKey.Coherent (keys : List NodeKey) : Prop where
  kept : ∀ k ∈ keys, ∀ l ∈ keys, ∀ i j, k.artifact? = some i → l.artifact? = some j →
    sortKey i = sortKey j → k.kept? = l.kept?
  spelled : ∀ p q, .macroExecutable p ∈ keys → .macroExecutable q ∈ keys →
    sortKey p = sortKey q → p = q

namespace References

variable {rs ps : List Reference}

theorem SameOutlines.firstKept_eq (h : SameOutlines rs ps)
    (hkept : ∀ r ∈ rs, ∀ p ∈ ps, r.idKey = p.idKey → sortKey r.kept = sortKey p.kept)
    (k : SortKey) : firstKept rs k = firstKept ps k := by
  have hsome : (findKey Reference.idKey rs k).isSome = true ↔
      (findKey Reference.idKey ps k).isSome = true := by
    rw [findKey_isSome, findKey_isSome]
    exact h.mem_map_iff (fun _ _ => Reference.idKey_of_outline) k
  unfold firstKept
  cases hr : findKey Reference.idKey rs k with
  | none => cases hp : findKey Reference.idKey ps k <;> simp_all
  | some r =>
    cases hp : findKey Reference.idKey ps k with
    | none => simp [hr, hp] at hsome
    | some p =>
      have hid : r.idKey = p.idKey := (key_of_findKey hr).trans (key_of_findKey hp).symm
      have := hkept r (mem_of_findKey hr) p (mem_of_findKey hp) hid
      simp [this]

end References

namespace Consumer

/-! ## Parts are contributions -/

section
variable {c : Consumer} {r : Reference}

def Contributes (c : Consumer) (r : Reference) : Prop :=
  ∃ n, c.contribution? n = some r

theorem contributes_of_mem {nodes : List Nat} (h : r ∈ c.contributions nodes) :
    c.Contributes r := by
  obtain ⟨n, -, hn⟩ := List.mem_filterMap.1 h
  exact ⟨n, hn⟩

theorem contributes_searchable (h : r ∈ c.searchableParts) : c.Contributes r := by
  rcases List.mem_append.1 h with h | h <;> exact contributes_of_mem h

theorem contributes_embeddedAlone (h : r ∈ c.embeddedAloneParts) : c.Contributes r := by
  unfold embeddedAloneParts at h
  split at h
  · exact contributes_of_mem h
  · cases h

theorem contributes_embedded (h : r ∈ c.embeddedParts) : c.Contributes r := by
  unfold embeddedParts at h
  split at h
  · split at h
    · exact contributes_embeddedAlone (List.mem_of_mem_filter h)
    · split at h
      · cases h
      · exact contributes_embeddedAlone h
  · exact contributes_embeddedAlone h

theorem contributes_bundles (h : r ∈ c.bundleParts) : c.Contributes r := by
  unfold bundleParts at h
  split at h
  · exact contributes_of_mem h
  · cases h

theorem contributes_copied (h : r ∈ c.copiedParts) : c.Contributes r := by
  unfold copiedParts at h
  simp only [List.mem_append] at h
  rcases h with ((h | h) | h) | h
  · exact contributes_of_mem h
  · split at h
    · exact contributes_of_mem h
    · cases h
  · exact contributes_of_mem h
  · exact contributes_bundles h

theorem kept?_referenceFor? {condition : Option Condition} {key : NodeKey} {i : ReferenceKey}
    (hkey : key.artifact? = some i) (h : c.referenceFor? condition key = some r) :
    key.kept? = some (sortKey r.kept) := by
  cases key with
  | prebuilt b =>
    cases Option.some.inj h
    simp only [NodeKey.kept?, Reference.ofBinary]
    cases b.origin <;> rfl
  | sdk name path status source => cases Option.some.inj h; rfl
  | bundle path => cases Option.some.inj h; rfl
  | _ => cases hkey

end

/-! ## Answers -/

structure EqualAnswers (c d : Consumer) : Prop where
  linked : c.linked.toList.map sortKey = d.linked.toList.map sortKey
  embedded : c.embedded.toList.map sortKey = d.embedded.toList.map sortKey
  copied : c.copied.toList.map sortKey = d.copied.toList.map sortKey
  bundles : c.bundles.toList.map sortKey = d.bundles.toList.map sortKey
  searchable : c.searchable.toList.map sortKey = d.searchable.toList.map sortKey
  plugins : c.plugins = d.plugins

section
variable {c d : Consumer} {keys : List NodeKey} (hkeys : NodeKey.Coherent keys)
  (hc : c.graph.wiring.keys ⊆ keys) (hd : d.graph.wiring.keys ⊆ keys)
include hkeys hc hd

theorem kept_eq {r p : Reference} (hr : c.Contributes r) (hp : d.Contributes p)
    (hid : r.idKey = p.idKey) : sortKey r.kept = sortKey p.kept := by
  obtain ⟨n, hr⟩ := hr
  obtain ⟨m, hp⟩ := hp
  obtain ⟨_, k, -, hk, hr⟩ := contribution?_eq_some.1 hr
  obtain ⟨_, l, -, hl, hp⟩ := contribution?_eq_some.1 hp
  rcases artifact_or_target hr hp hid with ⟨i, j, hi, hj, hij⟩ | ⟨-, hkept⟩
  · have hsame := hkeys.kept k (hc (Wiring.mem_keys_of_key? hk)) l
      (hd (Wiring.mem_keys_of_key? hl)) i j hi hj hij
    rw [kept?_referenceFor? hi hr, kept?_referenceFor? hj hp] at hsame
    exact Option.some.inj hsame
  · exact hkept

theorem Agree.mem_executableSpecifiers (h : c.Agree d) {s : String}
    (hs : s ∈ c.executableSpecifiers) : s ∈ d.executableSpecifiers := by
  have hnodes := h.graph.wiring.select h.node Graph.testsAgree_isMacroExecutable
    Graph.testsAgree_isMacroExecutable
  simp only [executableSpecifiers, List.mem_map, List.mem_filterMap] at hs ⊢
  obtain ⟨p, ⟨k, ⟨n, hn, hk⟩, hp⟩, rfl⟩ := hs
  obtain ⟨m, hm, hnm⟩ := hnodes.forth n hn
  obtain ⟨k', l, hk', hl, hkl⟩ := Wiring.matches_iff_keys.1 hnm
  cases hk.symm.trans hk'
  have hmacro : k.isMacroExecutable = true := by
    have hholds := (Wiring.mem_select.1 hn).2.1
    rwa [Wiring.holds, hk] at hholds
  refine ⟨p, ⟨l, ⟨m, hm, hl⟩, ?_⟩, rfl⟩
  have hkm := hc (Wiring.mem_keys_of_key? hk)
  have hlm := hd (Wiring.mem_keys_of_key? hl)
  cases NodeKey.alike_of_sortKey hkl with
  | macroExecutable hpath =>
    cases Option.some.inj hp
    rw [hkeys.spelled _ _ hkm hlm hpath]
    rfl
  | _ => cases hmacro

theorem Agree.equalAnswers (h : c.Agree d) : c.EqualAnswers d := by
  have hanswers := h.sameAnswers
  have hkept {r p : Reference} := kept_eq hkeys hc hd (r := r) (p := p)
  exact
    { linked := hanswers.linked.eq_iff.2 <| (h.contributions h.linkedNodes).firstKept_eq
        fun _ hr _ hp => hkept (contributes_of_mem hr) (contributes_of_mem hp)
      embedded := hanswers.embedded.eq_iff.2 <| h.embeddedParts.firstKept_eq
        fun _ hr _ hp => hkept (contributes_embedded hr) (contributes_embedded hp)
      copied := hanswers.copied.eq_iff.2 <| h.copiedParts.firstKept_eq
        fun _ hr _ hp => hkept (contributes_copied hr) (contributes_copied hp)
      bundles := hanswers.bundles.eq_iff.2 <| h.bundleParts.firstKept_eq
        fun _ hr _ hp => hkept (contributes_bundles hr) (contributes_bundles hp)
      searchable := hanswers.searchable.eq_iff.2 <| h.searchableParts.firstKept_eq
        fun _ hr _ hp => hkept (contributes_searchable hr) (contributes_searchable hp)
      plugins := by
        apply hanswers.plugins.2
        constructor
        · intro s hs
          exact mem_plugins.2 (.inl (h.mem_executableSpecifiers hkeys hc hd hs))
        · intro s hs
          exact mem_plugins.2 (.inl (h.symm.mem_executableSpecifiers hkeys hd hc hs)) }

end

end Consumer

theorem Graph.Agree.equalAnswers {g h : Graph} (hagree : g.Agree h) {keys : List NodeKey}
    (hkeys : NodeKey.Coherent keys) (hg : g.wiring.keys ⊆ keys) (hh : h.wiring.keys ⊆ keys)
    (path : Path) (name : String) :
    Option.Rel Consumer.EqualAnswers (g.consumer? path name) (h.consumer? path name) := by
  refine rel_of_rel (hagree.consumer? (rfl : sortKey path = sortKey path) name) ?_
  intro c d hc hd hcd
  exact hcd.equalAnswers hkeys (Graph.graph_of_consumer? hc ▸ hg) (Graph.graph_of_consumer? hd ▸ hh)

theorem Draft.answers_eq_of_coherent {workspace : Workspace} {calls calls' : List DraftCall}
    (h : DraftCall.Reordered calls calls')
    (hkeys : NodeKey.Coherent (calls.flatMap DraftCall.mentioned)) {g g' : Graph}
    (hg : (ofCalls workspace calls).build = .ok g)
    (hg' : (ofCalls workspace calls').build = .ok g') (path : Path) (name : String) :
    Option.Rel Consumer.EqualAnswers (g.consumer? path name) (g'.consumer? path name) := by
  obtain ⟨-, heq⟩ := sound_of_build hg
  obtain ⟨-, heq'⟩ := sound_of_build hg'
  have hsub : g.wiring.keys ⊆ calls.flatMap DraftCall.mentioned := by
    intro k hk
    rw [heq] at hk
    exact List.mem_flatMap.2 (spelled_ofCalls workspace calls hk)
  have hsub' : g'.wiring.keys ⊆ calls.flatMap DraftCall.mentioned := by
    intro k hk
    rw [heq'] at hk
    exact List.mem_flatMap.2 ((h.mentioned_iff k).2 (spelled_ofCalls workspace calls' hk))
  exact (agree_built h hg hg').equalAnswers hkeys hsub hsub' path name

end BuildGraph
