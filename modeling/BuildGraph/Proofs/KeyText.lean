import BuildGraph.Fingerprint.KeyText
import BuildGraph.Proofs.Ordered
import Mathlib.Data.List.Forall2

/-!
# Reading keys back from their text

The text of a key determines the key, also where more text follows it. A word ends
where no letter or digit follows, a quoted string at its first bare quote, and a
bracket where neither a comma nor another item follows. So every shape can be read
back from its parts.
-/

namespace BuildGraph.KeyText

/-! ## Texts that tell each other apart -/

def EndsWord (rest : List Char) : Prop :=
  ∀ c ∈ rest.head?, c.isAlphanum = false

@[simp] theorem endsWord_nil : EndsWord [] := by simp [EndsWord]

theorem endsWord_cons {c : Char} (hc : c.isAlphanum = false) (cs : List Char) :
    EndsWord (c :: cs) := by
  simpa [EndsWord] using hc

/-- Whatever follows them, neither text is the start of the other. -/
def Separable (s t : String) : Prop :=
  ∀ u v, EndsWord u → EndsWord v → s.toList ++ u = t.toList ++ v → s = t ∧ u = v

/-- Texts from which a value can be read back. -/
def Legible {α : Type} (text : α → String) : Prop :=
  ∀ a b u v, EndsWord u → EndsWord v → (text a).toList ++ u = (text b).toList ++ v → a = b ∧ u = v

section
variable {α β : Type}

theorem Legible.separable {text : α → String} (h : Legible text) (a b : α) :
    Separable (text a) (text b) := by
  intro u v hu hv he
  obtain ⟨rfl, huv⟩ := h a b u v hu hv he
  exact ⟨rfl, huv⟩

theorem Legible.injective {text : α → String} (h : Legible text) : Function.Injective text :=
  fun a b hab => (h a b [] [] endsWord_nil endsWord_nil (by rw [hab])).1

theorem Legible.of_separable {text : α → String} (hinj : Function.Injective text)
    (h : ∀ a b, Separable (text a) (text b)) : Legible text := by
  intro a b u v hu hv he
  obtain ⟨hab, huv⟩ := h a b u v hu hv he
  exact ⟨hinj hab, huv⟩

theorem Legible.comp {text : β → String} (h : Legible text) {f : α → β}
    (hf : Function.Injective f) : Legible fun a => text (f a) :=
  .of_separable (h.injective.comp hf) fun a b => h.separable (f a) (f b)

/-! ## Words -/

def IsWord (w : String) : Prop :=
  ∀ c ∈ w.toList, c.isAlphanum = true

instance (w : String) : Decidable (IsWord w) := List.decidableBAll _ _

theorem takeWhile_word {w : String} (hw : IsWord w) {u : List Char} (hu : EndsWord u) :
    (w.toList ++ u).takeWhile Char.isAlphanum = w.toList := by
  rw [List.takeWhile_append_of_pos hw]
  cases u with
  | nil => simp
  | cons c cs =>
    have hc : c.isAlphanum = false := hu c rfl
    rw [List.takeWhile_cons_of_neg (by simp [hc]), List.append_nil]

theorem IsWord.separable {w x : String} (hw : IsWord w) (hx : IsWord x) : Separable w x := by
  intro u v hu hv he
  have hwx : w.toList = x.toList := by
    rw [← takeWhile_word hw hu, he, takeWhile_word hx hv]
  refine ⟨String.toList_inj.1 hwx, ?_⟩
  rw [hwx] at he
  exact List.append_cancel_left he

theorem legible_words {text : α → String} (hwords : ∀ a, IsWord (text a))
    (hinj : Function.Injective text) : Legible text :=
  .of_separable hinj fun a b => (hwords a).separable (hwords b)

structure Headed (text word : α → String) : Prop where
  words : ∀ a, IsWord (word a)
  starts : ∀ a, ∃ rest, (text a).toList = (word a).toList ++ rest ∧
    ∀ u, EndsWord u → EndsWord (rest ++ u)

theorem Headed.word_eq {text word : α → String} (h : Headed text word) {a b : α} {u v : List Char}
    (hu : EndsWord u) (hv : EndsWord v) (he : (text a).toList ++ u = (text b).toList ++ v) :
    word a = word b := by
  obtain ⟨r, hr, hru⟩ := h.starts a
  obtain ⟨s, hs, hsv⟩ := h.starts b
  rw [hr, hs, List.append_assoc, List.append_assoc] at he
  exact ((h.words a).separable (h.words b) _ _ (hru u hu) (hsv v hv) he).1

theorem legible_linking : Legible linking :=
  legible_words (by intro a; cases a <;> decide) (by intro a b; cases a <;> cases b <;> decide)

theorem legible_status : Legible status :=
  legible_words (by intro a; cases a <;> decide) (by intro a b; cases a <;> cases b <;> decide)

theorem legible_source : Legible source :=
  legible_words (by intro a; cases a <;> decide) (by intro a b; cases a <;> cases b <;> decide)

theorem legible_packageUse : Legible packageUse :=
  legible_words (by intro a; cases a <;> decide) (by intro a b; cases a <;> cases b <;> decide)

theorem legible_platform : Legible platform :=
  legible_words (by intro a; cases a <;> decide) (by intro a b; cases a <;> cases b <;> decide)

theorem legible_architecture : Legible architecture :=
  legible_words (by intro a; cases a <;> decide) (by intro a b; cases a <;> cases b <;> decide)

theorem legible_bool : Legible bool :=
  legible_words (by intro a; cases a <;> decide) (by intro a b; cases a <;> cases b <;> decide)

/-! ## Code points -/

theorem toDigits_induction {motive : Nat → List Char → Prop}
    (digit : ∀ n < 16, motive n [n.digitChar])
    (snoc : ∀ n ds d, motive n ds → d < 16 → motive (16 * n + d) (ds ++ [d.digitChar])) (n : Nat) :
    motive n (Nat.toDigits 16 n) := by
  induction n using Nat.strongRecOn with
  | ind n ih =>
    rcases Nat.lt_or_ge n 16 with hlt | hge
    · rw [Nat.toDigits_of_lt_base hlt]
      exact digit n hlt
    · have h := snoc (n / 16) _ (n % 16) (ih _ (by omega)) (Nat.mod_lt n (by decide))
      rw [Nat.div_add_mod] at h
      rwa [Nat.toDigits_of_base_le (by decide) hge]

def readHex (digits : List Char) : Nat :=
  digits.foldl (fun n digit => 16 * n + "0123456789abcdef".toList.idxOf digit) 0

theorem idxOf_digitChar {n : Nat} (h : n < 16) :
    "0123456789abcdef".toList.idxOf n.digitChar = n := by
  decide +revert

theorem readHex_toDigits (n : Nat) : readHex (Nat.toDigits 16 n) = n := by
  induction n using toDigits_induction with
  | digit n hn => simpa [readHex] using idxOf_digitChar hn
  | snoc n ds d ih hd =>
    rw [readHex, List.foldl_append, ← readHex, ih, List.foldl_cons, List.foldl_nil,
      idxOf_digitChar hd]

theorem isWord_codePoint (c : Char) : IsWord (codePoint c) := by
  have hdigit : ∀ n < 16, n.digitChar.isAlphanum = true := by decide
  rw [codePoint, IsWord, String.toList_ofList]
  refine toDigits_induction (motive := fun _ ds => ∀ c ∈ ds, c.isAlphanum = true) ?_ ?_ c.toNat
  · intro n hn
    exact List.forall_mem_singleton.2 (hdigit n hn)
  · intro n ds d ih hd
    exact List.forall_mem_append.2 ⟨ih, List.forall_mem_singleton.2 (hdigit d hd)⟩

theorem codePoint_injective : Function.Injective codePoint := by
  intro c d h
  have hnat := congrArg readHex (String.ofList_inj.1 h)
  rw [readHex_toDigits, readHex_toDigits] at hnat
  exact Char.toNat_inj.1 hnat

theorem legible_codePoint : Legible codePoint :=
  legible_words isWord_codePoint codePoint_injective

/-! ## Quoted strings -/

inductive IsEscape (c : Char) : List Char → Prop
  | short {letter : Char} (h : shortEscape? c = some letter) : IsEscape c ['\\', letter]
  | plain (h : shortEscape? c = none) : IsEscape c [c]
  | code : IsEscape c (['\\', 'u', '\x7b'] ++ (codePoint c).toList ++ ['\x7d'])

theorem isEscape_escapeChar (c : Char) : IsEscape c (escapeChar c) := by
  unfold escapeChar
  split
  · exact .short ‹_›
  · split
    · exact .plain ‹_›
    · exact .code

example : escapeChar '\x7f' = ['\\', 'u', '\x7b', '7', 'f', '\x7d'] := by decide

theorem shortEscape?_injective {c d letter : Char} (hc : shortEscape? c = some letter)
    (hd : shortEscape? d = some letter) : c = d := by
  unfold shortEscape? at hc hd
  split at hc <;> split at hd <;> grind

theorem shortEscape?_ne {c letter : Char} (h : shortEscape? c = some letter) : letter ≠ 'u' := by
  unfold shortEscape? at h
  split at h <;> grind

/-- No way to write a character is the start of a way to write another one. -/
theorem IsEscape.cancel {c d : Char} {s t u v : List Char} (hc : IsEscape c s)
    (hd : IsEscape d t) (h : s ++ u = t ++ v) : c = d ∧ u = v := by
  cases hc with
  | short hc =>
    cases hd with
    | short hd =>
      obtain ⟨rfl, huv⟩ := List.cons.inj (List.cons.inj h).2
      exact ⟨shortEscape?_injective hc hd, huv⟩
    | plain hd =>
      obtain ⟨rfl, -⟩ := List.cons.inj h
      cases hd
    | code =>
      obtain ⟨hu, -⟩ := List.cons.inj (List.cons.inj h).2
      exact absurd hu (shortEscape?_ne hc)
  | plain hc =>
    cases hd with
    | short | code =>
      obtain ⟨rfl, -⟩ := List.cons.inj h
      cases hc
    | plain => exact ⟨(List.cons.inj h).1, (List.cons.inj h).2⟩
  | code =>
    cases hd with
    | short hd =>
      obtain ⟨hu, -⟩ := List.cons.inj (List.cons.inj h).2
      exact absurd hu.symm (shortEscape?_ne hd)
    | plain hd =>
      obtain ⟨rfl, -⟩ := List.cons.inj h
      cases hd
    | code =>
      have hcode : (codePoint c).toList ++ '\x7d' :: u = (codePoint d).toList ++ '\x7d' :: v := by
        simpa using h
      obtain ⟨hcd, hrest⟩ := legible_codePoint c d _ _ (endsWord_cons (by decide) u)
        (endsWord_cons (by decide) v) hcode
      exact ⟨hcd, (List.cons.inj hrest).2⟩

theorem IsEscape.ne_quote {c : Char} {s : List Char} (hc : IsEscape c s) (u v : List Char) :
    s ++ u ≠ '"' :: v := by
  intro h
  cases hc with
  | short | code => cases (List.cons.inj h).1
  | plain hc =>
    obtain ⟨rfl, -⟩ := List.cons.inj h
    cases hc

theorem escaped_cancel {cs ds u v : List Char}
    (h : cs.flatMap escapeChar ++ '"' :: u = ds.flatMap escapeChar ++ '"' :: v) :
    cs = ds ∧ u = v := by
  induction cs generalizing ds with
  | nil =>
    cases ds with
    | nil => simpa using h
    | cons d ds =>
      rw [List.flatMap_cons, List.append_assoc] at h
      exact absurd h.symm ((isEscape_escapeChar d).ne_quote _ _)
  | cons c cs ih =>
    rw [List.flatMap_cons, List.append_assoc] at h
    cases ds with
    | nil => exact absurd h ((isEscape_escapeChar c).ne_quote _ _)
    | cons d ds =>
      rw [List.flatMap_cons, List.append_assoc] at h
      obtain ⟨rfl, hrest⟩ := (isEscape_escapeChar c).cancel (isEscape_escapeChar d) h
      obtain ⟨rfl, huv⟩ := ih hrest
      exact ⟨rfl, huv⟩

theorem toList_quoted (s : String) :
    (quoted s).toList = '"' :: (s.toList.flatMap escapeChar ++ ['"']) := by
  simp [quoted]

theorem legible_quoted : Legible quoted := by
  intro s t u v _ _ h
  simp only [toList_quoted, List.cons_append, List.append_assoc, List.nil_append,
    List.cons.injEq, true_and] at h
  obtain ⟨hst, huv⟩ := escaped_cancel h
  exact ⟨String.toList_inj.1 hst, huv⟩

theorem legible_path : Legible path :=
  legible_quoted.comp fun p q h => by cases p; cases q; cases h; rfl

/-! ## Lists and sets -/

def followers (sep : String) (items : List String) : List Char :=
  items.flatMap fun item => sep.toList ++ item.toList

theorem toList_intercalate (sep item : String) (items : List String) :
    (String.intercalate sep (item :: items)).toList = item.toList ++ followers sep items := by
  induction items generalizing item with
  | nil => simp [followers]
  | cons next items ih =>
    have hstep : String.intercalate sep (item :: next :: items) =
        item ++ sep ++ String.intercalate sep (next :: items) := by simp
    rw [hstep, String.toList_append, String.toList_append, ih]
    simp [followers]

theorem followers_cons (sep item : String) (items : List String) (u : List Char) :
    followers sep (item :: items) ++ u = sep.toList ++ (item.toList ++ (followers sep items ++ u)) := by
  simp [followers]

def IsSeparator (sep : String) : Prop :=
  ∃ gap, sep.toList = ',' :: gap

section
variable {sep : String} (hsep : IsSeparator sep)
include hsep

theorem endsWord_followers (items : List String) {u : List Char} (hu : EndsWord u) :
    EndsWord (followers sep items ++ u) := by
  cases items with
  | nil => exact hu
  | cons item items =>
    obtain ⟨gap, hgap⟩ := hsep
    rw [followers_cons, hgap]
    exact endsWord_cons (by decide) _

theorem followers_ne {c : Char} (hcomma : c ≠ ',') (item : String) (items : List String)
    (u v : List Char) : followers sep (item :: items) ++ u ≠ c :: v := by
  obtain ⟨gap, hgap⟩ := hsep
  rw [followers_cons, hgap]
  exact fun h => hcomma (List.cons.inj h).1.symm

theorem followers_cancel {ss ts : List String} (h : ∀ p ∈ ss.zip ts, Separable p.1 p.2) {c : Char}
    (hc : c.isAlphanum = false) (hcomma : c ≠ ',') {u v : List Char}
    (he : followers sep ss ++ c :: u = followers sep ts ++ c :: v) : ss = ts ∧ u = v := by
  induction ss generalizing ts with
  | nil =>
    cases ts with
    | nil => simpa using he
    | cons t ts => exact absurd he.symm (followers_ne hsep hcomma t ts _ _)
  | cons s ss ih =>
    cases ts with
    | nil => exact absurd he (followers_ne hsep hcomma s ss _ _)
    | cons t ts =>
      rw [followers_cons, followers_cons, List.append_cancel_left_eq] at he
      obtain ⟨hst, hpairs⟩ := List.forall_mem_cons.1 h
      obtain ⟨(rfl : s = t), hrest⟩ := hst _ _ (endsWord_followers hsep ss (endsWord_cons hc u))
        (endsWord_followers hsep ts (endsWord_cons hc v)) he
      obtain ⟨rfl, huv⟩ := ih hpairs hrest
      exact ⟨rfl, huv⟩

end

def StartsOff (c : Char) (s : String) : Prop :=
  ∃ d ds, s.toList = d :: ds ∧ d ≠ c

/-- Items up to a closing bracket are told apart if each is, and none starts like the bracket. -/
theorem items_cancel {sep : String} (hsep : IsSeparator sep) {ss ts : List String}
    (h : ∀ p ∈ ss.zip ts, Separable p.1 p.2) {c : Char} (hc : c.isAlphanum = false)
    (hcomma : c ≠ ',') (hs : ∀ s ∈ ss, StartsOff c s) (ht : ∀ t ∈ ts, StartsOff c t)
    {u v : List Char}
    (he : (String.intercalate sep ss).toList ++ c :: u =
      (String.intercalate sep ts).toList ++ c :: v) : ss = ts ∧ u = v := by
  have hstart {s : String} (hs : StartsOff c s) (u v : List Char) : s.toList ++ u ≠ c :: v := by
    obtain ⟨d, ds, hd, hdc⟩ := hs
    rw [hd]
    exact fun h => hdc (List.cons.inj h).1
  cases ss with
  | nil =>
    cases ts with
    | nil => exact ⟨rfl, (List.cons.inj he).2⟩
    | cons t ts =>
      rw [toList_intercalate, List.append_assoc] at he
      exact absurd he.symm (hstart (ht t (List.mem_cons_self ..)) _ _)
  | cons s ss =>
    rw [toList_intercalate, List.append_assoc] at he
    cases ts with
    | nil => exact absurd he (hstart (hs s (List.mem_cons_self ..)) _ _)
    | cons t ts =>
      rw [toList_intercalate, List.append_assoc] at he
      apply followers_cancel hsep h hc hcomma
      rw [followers_cons, followers_cons, he]

theorem Legible.enclosed {text : α → String} (h : Legible text) {sep opening closing : String}
    {c : Char} (hsep : IsSeparator sep) (hclosing : closing.toList = [c])
    (hc : c.isAlphanum = false) (hcomma : c ≠ ',') (hstart : ∀ a, StartsOff c (text a)) :
    Legible fun xs : List α => opening ++ String.intercalate sep (xs.map text) ++ closing := by
  intro xs ys u v _ _ he
  simp only [hclosing, String.toList_append, List.append_assoc, List.append_cancel_left_eq,
    List.cons_append, List.nil_append] at he
  have hpairs : ∀ p ∈ (xs.map text).zip (ys.map text), Separable p.1 p.2 := by
    intro p hp
    obtain ⟨x, -, hx⟩ := List.mem_map.1 (List.of_mem_zip hp).1
    obtain ⟨y, -, hy⟩ := List.mem_map.1 (List.of_mem_zip hp).2
    rw [← hx, ← hy]
    exact h.separable x y
  obtain ⟨hmap, huv⟩ := items_cancel hsep hpairs hc hcomma
    (List.forall_mem_map.2 fun a _ => hstart a) (List.forall_mem_map.2 fun a _ => hstart a) he
  exact ⟨List.map_injective_iff.2 h.injective hmap, huv⟩

theorem Legible.list {text : α → String} (h : Legible text)
    (hstart : ∀ a, StartsOff ']' (text a)) : Legible fun xs : List α => KeyText.list (xs.map text) :=
  h.enclosed ⟨[' '], rfl⟩ rfl (by decide) (by decide) hstart

theorem Legible.set {text : α → String} (h : Legible text)
    (hstart : ∀ a, StartsOff '\x7d' (text a)) : Legible fun xs : List α => KeyText.set (xs.map text) :=
  h.enclosed ⟨[' '], rfl⟩ rfl (by decide) (by decide) hstart

/-! ## Wrapped texts -/

theorem toList_wrapped (name inner : String) :
    (wrapped name inner).toList = name.toList ++ '(' :: (inner.toList ++ [')']) := by
  simp [wrapped]

theorem Legible.wrapped {text : α → String} (h : Legible text) {name : String} {a b : α}
    {u v : List Char}
    (he : (KeyText.wrapped name (text a)).toList ++ u =
      (KeyText.wrapped name (text b)).toList ++ v) : a = b ∧ u = v := by
  simp only [toList_wrapped, List.append_assoc, List.cons_append, List.append_cancel_left_eq,
    List.cons.injEq, true_and, List.nil_append] at he
  obtain ⟨hab, hrest⟩ :=
    h a b _ _ (endsWord_cons (by decide) _) (endsWord_cons (by decide) _) he
  exact ⟨hab, (List.cons.inj hrest).2⟩

theorem Legible.option {text : α → String} (h : Legible text) :
    Legible fun x : Option α => KeyText.option (x.map text) := by
  intro x y u v hu hv he
  cases x with
  | none =>
    cases y with
    | none => simpa [KeyText.option] using he
    | some b => simp [KeyText.option, KeyText.wrapped] at he
  | some a =>
    cases y with
    | none => simp [KeyText.option, KeyText.wrapped] at he
    | some b =>
      obtain ⟨rfl, huv⟩ := h.wrapped he
      exact ⟨rfl, huv⟩

/-! ## Records -/

def SameFields (xs ys : List (String × String)) : Prop :=
  List.Forall₂ (fun x y => x.1 = y.1 ∧ Separable x.2 y.2) xs ys

def fieldText (field : String × String) : String :=
  field.1 ++ ": " ++ field.2

theorem fieldText_cancel {x y : String × String} (hname : x.1 = y.1) {u v : List Char}
    (he : (fieldText x).toList ++ u = (fieldText y).toList ++ v) :
    x.2.toList ++ u = y.2.toList ++ v := by
  simp only [fieldText, String.toList_append, List.append_assoc, hname] at he
  exact List.append_cancel_left (List.append_cancel_left he)

theorem fields_cancel {xs ys : List (String × String)} (h : SameFields xs ys) {u v : List Char}
    (hu : EndsWord u) (hv : EndsWord v)
    (he : followers ", " (xs.map fieldText) ++ u = followers ", " (ys.map fieldText) ++ v) :
    xs = ys ∧ u = v := by
  have hsep : IsSeparator ", " := ⟨[' '], rfl⟩
  induction h with
  | nil => exact ⟨rfl, he⟩
  | @cons x y xs ys hxy _ ih =>
    simp only [List.map_cons, followers_cons, List.append_cancel_left_eq] at he
    obtain ⟨hvalue, hrest⟩ := hxy.2 _ _ (endsWord_followers hsep _ hu)
      (endsWord_followers hsep _ hv) (fieldText_cancel hxy.1 he)
    obtain ⟨rfl, huv⟩ := ih hrest
    exact ⟨by rw [Prod.ext hxy.1 hvalue], huv⟩

theorem toList_record (name : String) (fields : List (String × String)) :
    (record name fields).toList = name.toList ++ ' ' :: '\x7b' :: ' ' ::
      ((String.intercalate ", " (fields.map fieldText)).toList ++ [' ', '\x7d']) := by
  have hrecord : record name fields =
      name ++ " \x7b " ++ commaSeparated (fields.map fieldText) ++ " \x7d" := rfl
  simp [hrecord, commaSeparated]

theorem record_cancel {name : String} {xs ys : List (String × String)} (h : SameFields xs ys)
    {u v : List Char} (he : (record name xs).toList ++ u = (record name ys).toList ++ v) :
    xs = ys ∧ u = v := by
  simp only [toList_record, List.append_assoc, List.cons_append, List.nil_append,
    List.append_cancel_left_eq, List.cons.injEq, true_and] at he
  suffices hall : xs = ys ∧ ' ' :: '\x7d' :: u = ' ' :: '\x7d' :: v by simpa using hall
  have hend (w : List Char) : EndsWord (' ' :: w) := endsWord_cons (by decide) w
  cases h with
  | nil => exact ⟨rfl, he⟩
  | cons hxy hrest =>
    simp only [List.map_cons, toList_intercalate, List.append_assoc] at he
    apply fields_cancel (.cons hxy hrest) (hend _) (hend _)
    rw [List.map_cons, List.map_cons, followers_cons, followers_cons, he]

theorem legible_record {name : String} {fields : α → List (String × String)}
    (hinj : Function.Injective fields) (h : ∀ a b, SameFields (fields a) (fields b)) :
    Legible fun a => record name (fields a) := by
  intro a b u v _ _ he
  obtain ⟨hfields, huv⟩ := record_cancel (h a b) he
  exact ⟨hinj hfields, huv⟩

theorem Legible.field {text : α → String} (h : Legible text) (name : String) (a b : α)
    {xs ys : List (String × String)} (hrest : SameFields xs ys) :
    SameFields ((name, text a) :: xs) ((name, text b) :: ys) :=
  .cons ⟨rfl, h.separable a b⟩ hrest

end

/-! ## Parts of keys -/

theorem legible_architectures : Legible architectures := by
  have hset := legible_architecture.set (by rintro (_ | _) <;> exact ⟨_, _, rfl, by decide⟩)
  refine hset.comp fun s t h => ?_
  cases s
  cases t
  cases h
  rfl

theorem startsOff_quoted {c : Char} (hc : '"' ≠ c) (s : String) : StartsOff c (quoted s) :=
  ⟨_, _, toList_quoted s, hc⟩

theorem legible_slice : Legible slice := by
  apply legible_record
  · intro a b h
    cases a
    cases b
    simpa [legible_quoted.injective.eq_iff, legible_path.injective.eq_iff,
      legible_architectures.injective.eq_iff, legible_platform.injective.eq_iff] using h
  · intro a b
    exact legible_quoted.field _ _ _ <| legible_path.field _ _ _ <| legible_quoted.field _ _ _ <|
      legible_architectures.field _ _ _ <| legible_platform.field _ _ _ .nil

theorem legible_info : Legible info := by
  have hslices := legible_slice.list fun a => ⟨_, _, toList_record .., by decide⟩
  apply legible_record
  · intro a b h
    cases a
    cases b
    simpa [hslices.injective.eq_iff] using h
  · exact fun a b => hslices.field _ _ _ .nil

def originWord : BinaryOrigin → String
  | .framework => "Framework"
  | .library _ _ => "Library"
  | .xcframework _ => "XcFramework"

theorem headed_origin : Headed origin originWord where
  words o := by cases o <;> simp only [originWord] <;> decide
  starts o := by
    cases o with
    | framework => exact ⟨[], (List.append_nil _).symm, fun u hu => hu⟩
    | _ => exact ⟨_, toList_record .., fun u _ => endsWord_cons (by decide) _⟩

theorem legible_origin : Legible origin := by
  have hmap := legible_path.option
  intro a b u v hu hv he
  have hword := headed_origin.word_eq hu hv he
  cases a with
  | framework =>
    cases b with
    | framework => exact ⟨rfl, List.append_cancel_left he⟩
    | _ => simp [originWord] at hword
  | library headers moduleMap =>
    cases b with
    | library headers' moduleMap' =>
      obtain ⟨hfields, huv⟩ := record_cancel
        (legible_path.field _ headers headers' (hmap.field _ moduleMap moduleMap' .nil)) he
      refine ⟨?_, huv⟩
      simpa [legible_path.injective.eq_iff, hmap.injective.eq_iff] using hfields
    | _ => simp [originWord] at hword
  | xcframework info =>
    cases b with
    | xcframework info' =>
      obtain ⟨hfields, huv⟩ := record_cancel (legible_info.field _ info info' .nil) he
      refine ⟨?_, huv⟩
      simpa [legible_info.injective.eq_iff] using hfields
    | _ => simp [originWord] at hword

theorem legible_binary : Legible binary := by
  have hpath := legible_path.option
  have hpaths := legible_path.list fun p => startsOff_quoted (by decide) p.text
  apply legible_record
  · intro a b h
    cases a
    cases b
    simpa [legible_path.injective.eq_iff, legible_linking.injective.eq_iff,
      legible_architectures.injective.eq_iff, hpath.injective.eq_iff, hpaths.injective.eq_iff,
      legible_origin.injective.eq_iff, legible_status.injective.eq_iff,
      legible_bool.injective.eq_iff] using h
  · intro a b
    exact legible_path.field _ _ _ <| legible_path.field _ _ _ <| legible_linking.field _ _ _ <|
      legible_architectures.field _ _ _ <| hpath.field _ _ _ <| hpaths.field _ _ _ <|
      legible_origin.field _ _ _ <| legible_status.field _ _ _ <| legible_bool.field _ _ _ .nil

theorem legible_targetId : Legible targetId := by
  apply legible_record
  · intro a b h
    cases a
    cases b
    simpa [legible_path.injective.eq_iff, legible_quoted.injective.eq_iff] using h
  · intro a b
    exact legible_path.field _ _ _ <| legible_quoted.field _ _ _ .nil

/-! ## Keys -/

def keyWord : NodeKey → String
  | .target _ => "Target"
  | .prebuilt _ => "Precompiled"
  | .packageProduct .. => "PackageProduct"
  | .sdk .. => "Sdk"
  | .bundle _ => "Bundle"
  | .macroExecutable _ => "Macro"

theorem headed_canonicalText : Headed NodeKey.canonicalText keyWord where
  words k := by cases k <;> simp only [keyWord] <;> decide
  starts k := by
    cases k with
    | target id => exact ⟨_, toList_wrapped .., fun u _ => endsWord_cons (by decide) _⟩
    | prebuilt binary => exact ⟨_, toList_wrapped .., fun u _ => endsWord_cons (by decide) _⟩
    | _ => exact ⟨_, toList_record .., fun u _ => endsWord_cons (by decide) _⟩

/-- The text of a key determines the key, down to the spelling of its paths. -/
theorem legible_canonicalText : Legible NodeKey.canonicalText := by
  intro k l u v hu hv he
  have hword := headed_canonicalText.word_eq hu hv he
  -- the first word tells the kind of key, so both keys are of one kind
  cases k with
  | target id =>
    cases l with
    | target id' =>
      obtain ⟨rfl, huv⟩ := legible_targetId.wrapped he
      exact ⟨rfl, huv⟩
    | _ => simp [keyWord] at hword
  | prebuilt binary =>
    cases l with
    | prebuilt binary' =>
      obtain ⟨rfl, huv⟩ := legible_binary.wrapped he
      exact ⟨rfl, huv⟩
    | _ => simp [keyWord] at hword
  | packageProduct projectPath product use =>
    cases l with
    | packageProduct projectPath' product' use' =>
      obtain ⟨hfields, huv⟩ := record_cancel (legible_path.field _ projectPath projectPath' <|
        legible_quoted.field _ product product' <| legible_packageUse.field _ use use' .nil) he
      refine ⟨?_, huv⟩
      simpa [legible_path.injective.eq_iff, legible_quoted.injective.eq_iff,
        legible_packageUse.injective.eq_iff] using hfields
    | _ => simp [keyWord] at hword
  | sdk name path status source =>
    cases l with
    | sdk name' path' status' source' =>
      obtain ⟨hfields, huv⟩ := record_cancel (legible_quoted.field _ name name' <|
        legible_path.field _ path path' <| legible_status.field _ status status' <|
        legible_source.field _ source source' .nil) he
      refine ⟨?_, huv⟩
      simpa [legible_path.injective.eq_iff, legible_quoted.injective.eq_iff,
        legible_status.injective.eq_iff, legible_source.injective.eq_iff] using hfields
    | _ => simp [keyWord] at hword
  | bundle path =>
    cases l with
    | bundle path' =>
      obtain ⟨hfields, huv⟩ := record_cancel (legible_path.field _ path path' .nil) he
      refine ⟨?_, huv⟩
      simpa [legible_path.injective.eq_iff] using hfields
    | _ => simp [keyWord] at hword
  | macroExecutable path =>
    cases l with
    | macroExecutable path' =>
      obtain ⟨hfields, huv⟩ := record_cancel (legible_path.field _ path path' .nil) he
      refine ⟨?_, huv⟩
      simpa [legible_path.injective.eq_iff] using hfields
    | _ => simp [keyWord] at hword

end BuildGraph.KeyText
