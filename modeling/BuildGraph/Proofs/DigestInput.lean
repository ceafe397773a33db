import BuildGraph.Fingerprint
import BuildGraph.Proofs.KeyText
import BuildGraph.Proofs.Links
import BuildGraph.Proofs.NodeKey
import BuildGraph.Proofs.PathCondition

/-!
# Reading a graph back from its digest input

The input of the digest is a row of tokens, each closed by a zero: first the keys, then
two keys and a condition for each edge. Nothing marks where the edges start, but no key
is written like a condition, so the number of conditions tells. Hence two graphs have
the same input exactly if they have the same keys, with the same spelling, and the same
edges.
-/

namespace BuildGraph

/-! ## Tokens -/

inductive Token where
  | key (k : NodeKey)
  | condition (c : Option Condition)

namespace Token

def text : Token → String
  | key k => k.canonicalText
  | condition c => (c.map Condition.text).getD "-"

def word : Token → String
  | key k => KeyText.keyWord k
  | condition none => ""
  | condition (some _) => "when"

def isCondition : Token → Bool
  | key _ => false
  | condition _ => true

open KeyText

theorem headed_text : Headed text word where
  words t := by
    match t with
    | key k => exact headed_canonicalText.words k
    | condition none => exact (by decide : IsWord "")
    | condition (some _) => exact (by decide : IsWord "when")
  starts t := by
    match t with
    | key k => exact headed_canonicalText.starts k
    | condition none => exact ⟨['-'], rfl, fun u _ => endsWord_cons (by decide) u⟩
    | condition (some c) =>
      refine ⟨'[' :: ((String.intercalate "," (c.platforms.toList.map Platform.name)).toList ++ [']']),
        ?_, fun u _ => endsWord_cons (by decide) _⟩
      simp [text, word, Condition.text]

theorem legible_condition : Legible Condition.text := by
  have hnames : Legible Platform.name :=
    legible_words (by intro a; cases a <;> decide) (by intro a b; cases a <;> cases b <;> decide)
  have hlist : Legible fun ps : List Platform =>
      "when[" ++ String.intercalate "," (ps.map Platform.name) ++ "]" :=
    hnames.enclosed ⟨[], rfl⟩ rfl (by decide) (by decide)
      (by intro a; cases a <;> exact ⟨_, _, rfl, by decide⟩)
  have hinj : Function.Injective fun c : Condition => c.platforms.toList := by
    rintro ⟨⟨_, _⟩, _⟩ ⟨⟨_, _⟩, _⟩ rfl
    rfl
  exact hlist.comp hinj

theorem keyWord_ne (k : NodeKey) : keyWord k ≠ "" ∧ keyWord k ≠ "when" := by
  cases k <;> simp [keyWord]

theorem legible_text : Legible text := by
  intro s t u v hu hv he
  have hword := headed_text.word_eq hu hv he
  match s, t with
  | key k, key l =>
    obtain ⟨rfl, huv⟩ := legible_canonicalText k l u v hu hv he
    exact ⟨rfl, huv⟩
  | condition none, condition none => exact ⟨rfl, (List.cons.inj he).2⟩
  | condition (some c), condition (some d) =>
    obtain ⟨rfl, huv⟩ := legible_condition c d u v hu hv he
    exact ⟨rfl, huv⟩
  | key k, condition none => exact absurd hword (keyWord_ne k).1
  | key k, condition (some _) => exact absurd hword (keyWord_ne k).2
  | condition none, key k => exact absurd hword.symm (keyWord_ne k).1
  | condition (some _), key k => exact absurd hword.symm (keyWord_ne k).2
  | condition none, condition (some _) => exact absurd hword (by simp [word])
  | condition (some _), condition none => exact absurd hword (by simp [word])

/-! ## Rows of tokens -/

def row (ts : List Token) : List Char :=
  ts.flatMap fun t => t.text.toList ++ ['\x00']

theorem row_injective {ts us : List Token} (h : row ts = row us) : ts = us := by
  have hend (cs : List Char) : EndsWord ('\x00' :: cs) := endsWord_cons (by decide) cs
  induction ts generalizing us with
  | nil =>
    cases us with
    | nil => rfl
    | cons u us => simp [row] at h
  | cons t ts ih =>
    cases us with
    | nil => simp [row] at h
    | cons u us =>
      simp only [row, List.flatMap_cons, List.append_assoc, List.cons_append,
        List.nil_append] at h
      obtain ⟨rfl, hrest⟩ := legible_text t u _ _ (hend _) (hend _) h
      exact congrArg _ (ih (List.cons.inj hrest).2)

end Token

namespace Link

def tokens (l : Link) : List Token :=
  [.key l.source, .key l.target, .condition l.condition]

def line (l : Link) : String :=
  l.source.canonicalText ++ "\x00" ++ l.target.canonicalText ++ "\x00"
    ++ (l.condition.map Condition.text).getD "-"

theorem length_tokens (ls : List Link) : (ls.flatMap tokens).length = 3 * ls.length := by
  induction ls with
  | nil => rfl
  | cons l ls ih =>
    rw [List.flatMap_cons, List.length_append, ih, List.length_cons]
    simp only [tokens, List.length_cons, List.length_nil]
    omega

theorem count_tokens (ls : List Link) :
    (ls.flatMap tokens).countP Token.isCondition = ls.length := by
  induction ls with
  | nil => rfl
  | cons l ls ih =>
    rw [List.flatMap_cons, List.countP_append, ih, List.length_cons]
    simp [tokens, Token.isCondition, Nat.add_comm]

theorem tokens_injective {ls ms : List Link} (h : ls.flatMap tokens = ms.flatMap tokens) :
    ls = ms := by
  induction ls generalizing ms with
  | nil =>
    cases ms with
    | nil => rfl
    | cons m ms => simp [tokens] at h
  | cons l ls ih =>
    cases ms with
    | nil => simp [tokens] at h
    | cons m ms =>
      simp only [tokens, List.flatMap_cons, List.cons_append, List.nil_append, List.cons.injEq,
        Token.key.injEq, Token.condition.injEq] at h
      obtain ⟨hsource, htarget, hcondition, hrest⟩ := h
      rw [ih hrest]
      cases l
      cases m
      simp_all

end Link

/-- Keys and links can be read back although nothing stands between them. -/
theorem keys_links_injective {ks js : List NodeKey} {ls ms : List Link}
    (h : ks.map Token.key ++ ls.flatMap Link.tokens = js.map Token.key ++ ms.flatMap Link.tokens) :
    ks = js ∧ ls = ms := by
  have hkeys (ks : List NodeKey) : (ks.map Token.key).countP Token.isCondition = 0 := by
    simp [Token.isCondition]
  have hlength : ls.length = ms.length := by
    have hcount := congrArg (List.countP Token.isCondition) h
    simpa only [List.countP_append, hkeys, Link.count_tokens, Nat.zero_add] using hcount
  obtain ⟨hks, hls⟩ := List.append_inj' h
    (by rw [Link.length_tokens, Link.length_tokens, hlength])
  exact ⟨List.map_injective_iff.2 (fun _ _ => Token.key.inj) hks, Link.tokens_injective hls⟩

namespace Wiring

section
variable {w v : Wiring}

theorem WellFormed.edgeLines (hw : w.WellFormed) :
    w.edges.map w.edgeLine = w.links.map Link.line := by
  have hlink (e : Edge) (he : e ∈ w.edges) : ∃ l, w.link? e = some l ∧ w.edgeLine e = l.line := by
    obtain ⟨l, -, hl⟩ := hw.exists_link he
    obtain ⟨hsource, htarget, hcondition⟩ := link?_eq_some.1 hl
    refine ⟨l, hl, ?_⟩
    simp [edgeLine, keyText, hsource, htarget, hcondition, Link.line]
  unfold links
  generalize w.edges = es at hlink
  induction es with
  | nil => rfl
  | cons e es ih =>
    rw [List.forall_mem_cons] at hlink
    obtain ⟨l, hl, hline⟩ := hlink.1
    rw [List.filterMap_cons_some hl, List.map_cons, List.map_cons, hline, ih hlink.2]

/-! ## The digest input -/

def sortedKeys (w : Wiring) : List NodeKey :=
  sortBy (fun k => sortKey k.canonicalText) w.keys

def sortedLinks (w : Wiring) : List Link :=
  sortBy (fun l => sortKey l.line) w.links

theorem mem_sortedKeys {k : NodeKey} : k ∈ w.sortedKeys ↔ k ∈ w.keys := mem_sortBy

theorem mem_sortedLinks {l : Link} : l ∈ w.sortedLinks ↔ l ∈ w.links := mem_sortBy

theorem WellFormed.toList_digestInput (hw : w.WellFormed) : w.digestInput.toList =
    Token.row (w.sortedKeys.map .key ++ w.sortedLinks.flatMap Link.tokens) := by
  have hkeys : sorted w.nodeLines = w.sortedKeys.map NodeKey.canonicalText := sortBy_map ..
  have hlinks : sorted (w.edges.map w.edgeLine) = w.sortedLinks.map Link.line := by
    rw [hw.edgeLines]
    exact sortBy_map ..
  simp only [digestInput, hkeys, hlinks, Token.row, List.map_append, List.map_map,
    String.toList_join, List.flatMap_append, List.flatMap_map, List.flatMap_assoc]
  simp [Link.line, Link.tokens, Token.text]

theorem WellFormed.digestInput_inj (hw : w.WellFormed) (hv : v.WellFormed) :
    w.digestInput = v.digestInput ↔
      (∀ k, k ∈ w.keys ↔ k ∈ v.keys) ∧ ∀ l, l ∈ w.links ↔ l ∈ v.links := by
  constructor
  · intro h
    have hrow := congrArg String.toList h
    rw [hw.toList_digestInput, hv.toList_digestInput] at hrow
    obtain ⟨hkeys, hlinks⟩ := keys_links_injective (Token.row_injective hrow)
    refine ⟨fun k => ?_, fun l => ?_⟩
    · rw [← mem_sortedKeys, hkeys, mem_sortedKeys]
    · rw [← mem_sortedLinks, hlinks, mem_sortedLinks]
  · rintro ⟨hkeys, hlinks⟩
    have hkeysPerm := (List.perm_ext_iff_of_nodup hw.keys_nodup hv.keys_nodup).2 hkeys
    have hlinksPerm := (List.perm_ext_iff_of_nodup hw.links_nodup hv.links_nodup).2 hlinks
    have hnodes : sorted w.nodeLines = sorted v.nodeLines :=
      sortBy_eq_of_perm sortKey_string_injective (hkeysPerm.map _)
    have hedges : sorted (w.edges.map w.edgeLine) = sorted (v.edges.map v.edgeLine) := by
      rw [hw.edgeLines, hv.edgeLines]
      exact sortBy_eq_of_perm sortKey_string_injective (hlinksPerm.map _)
    rw [digestInput, digestInput, hnodes, hedges]

end

end Wiring

/-- The bytes under a graph's fingerprint say which keys it has, how they are spelled, and
which edges it has under which conditions, and they say nothing else. -/
theorem Graph.IsBuilt.digestInput_eq_iff {g h : Graph} (hg : g.IsBuilt) (hh : h.IsBuilt) :
    g.wiring.digestInput.toUTF8 = h.wiring.digestInput.toUTF8 ↔
      (∀ k, k ∈ g.wiring.keys ↔ k ∈ h.wiring.keys) ∧
        ∀ l, l ∈ g.wiring.links ↔ l ∈ h.wiring.links := by
  rw [String.toUTF8_eq_toByteArray, String.toUTF8_eq_toByteArray, String.toByteArray_inj]
  exact hg.sound.1.digestInput_inj hh.sound.1

def palette (first second : Path) (condition : Option Condition) : Draft :=
  let app : NodeKey := .ofTarget ⟨"/w"⟩ "App"
  .ofCalls ⟨⟨"/w"⟩, "W", []⟩ [
    .register ⟨⟨"/w"⟩, "W", .localProject, [{ name := "App", product := .app }]⟩,
    .declare app (.bundle first) none, .declare app (.bundle second) condition]

def paletteGraph (first second : Path) (condition : Option Condition) : Graph :=
  ⟨(palette first second condition).workspace, (palette first second condition).projects,
    (palette first second condition).wiring⟩

theorem isBuilt_palette : (paletteGraph ⟨"/A.bundle"⟩ ⟨"/B.bundle"⟩ none).IsBuilt ∧
    (paletteGraph ⟨"/B.bundle"⟩ ⟨"/A.bundle"⟩ none).IsBuilt ∧
    (paletteGraph ⟨"/A.bundle"⟩ ⟨"/B.bundle"⟩ (some (.only .ios))).IsBuilt :=
  ⟨Draft.isBuilt_of_checks (by decide) (by decide) (by decide),
    Draft.isBuilt_of_checks (by decide) (by decide) (by decide),
    Draft.isBuilt_of_checks (by decide) (by decide) (by decide)⟩

theorem swapped_palette :
    let g := paletteGraph ⟨"/A.bundle"⟩ ⟨"/B.bundle"⟩ none
    let h := paletteGraph ⟨"/B.bundle"⟩ ⟨"/A.bundle"⟩ none
    (∀ k, k ∈ g.wiring.keys ↔ k ∈ h.wiring.keys) ∧ ∀ l, l ∈ g.wiring.links ↔ l ∈ h.wiring.links := by
  intro g h
  have hkeys : g.wiring.keys.Perm h.wiring.keys := by decide
  have hlinks : g.wiring.links.Perm h.wiring.links := by decide
  exact ⟨fun _ => hkeys.mem_iff, fun _ => hlinks.mem_iff⟩

theorem digestInput_palette :
    let g := paletteGraph ⟨"/A.bundle"⟩ ⟨"/B.bundle"⟩ none
    let h := paletteGraph ⟨"/B.bundle"⟩ ⟨"/A.bundle"⟩ none
    let k := paletteGraph ⟨"/A.bundle"⟩ ⟨"/B.bundle"⟩ (some (.only .ios))
    g.IsBuilt ∧ h.IsBuilt ∧ k.IsBuilt ∧ g.wiring.keys ≠ h.wiring.keys ∧
      g.wiring.digestInput.toUTF8 = h.wiring.digestInput.toUTF8 ∧
      g.wiring.digestInput.toUTF8 ≠ k.wiring.digestInput.toUTF8 := by
  intro g h k
  obtain ⟨hg, hh, hk⟩ := isBuilt_palette
  refine ⟨hg, hh, hk, by decide, ?_, fun hgk => ?_⟩
  · exact (Graph.IsBuilt.digestInput_eq_iff hg hh).2 swapped_palette
  · have hsame := ((Graph.IsBuilt.digestInput_eq_iff hg hk).1 hgk).2
      ⟨.ofTarget ⟨"/w"⟩ "App", .bundle ⟨"/B.bundle"⟩, none⟩
    exact absurd hsame (by decide)

end BuildGraph
