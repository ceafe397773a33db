import BuildGraph.Document.NodeKey
import BuildGraph.Document.Workspace
import BuildGraph.Proofs.Ordered

/-!
# Reading back what is written

Every value of a description is read back from its document, with every path spelled as
before. Fields are found by name, so an entry that names a form stands beside them, and a
default is read only where nothing is written. An empty list of platforms is no condition.
-/

namespace BuildGraph

/-! ## Values -/

/-- What is written of a value is read as that value, alone or within a record. -/
class ReadsBack (α : Type) [Documented α] : Prop where
  readAs?_encode : ∀ (reading : Reading) (a : α), readAs? reading (encode a) = some a

/-- No value is written as null, so that null is free for a value that is missing. -/
class NeverNull (α : Type) [Documented α] : Prop where
  encode_ne_null : ∀ a : α, encode a ≠ .null

section
variable {α : Type}

theorem readsBack_ofVocabulary [Vocabulary α] : @ReadsBack α .ofVocabulary :=
  @ReadsBack.mk α .ofVocabulary fun reading a => by
    cases reading <;> exact Vocabulary.ofName?_name a

instance : ReadsBack Platform := readsBack_ofVocabulary

instance : ReadsBack Product := readsBack_ofVocabulary

instance : ReadsBack LinkStatus := readsBack_ofVocabulary

instance : ReadsBack PackageUse := readsBack_ofVocabulary

instance : ReadsBack ProjectOrigin := readsBack_ofVocabulary

instance : ReadsBack Linking := readsBack_ofVocabulary

instance : ReadsBack SdkOrigin := readsBack_ofVocabulary

instance : ReadsBack Architecture := readsBack_ofVocabulary

instance : ReadsBack Bool := ⟨fun _ _ => rfl⟩

instance : ReadsBack String := ⟨fun _ _ => rfl⟩

instance : ReadsBack Path := ⟨fun _ _ => rfl⟩

instance : NeverNull String := ⟨fun _ h => nomatch h⟩

instance : NeverNull Path := ⟨fun _ h => nomatch h⟩

instance : NeverNull Condition := ⟨fun _ h => nomatch h⟩

section
variable [Documented α] {reading : Reading} {d : Document}

theorem readAs?_option (h : d ≠ .null) :
    (readAs? reading d : Option (Option α)) = (readAs? reading d).map some := by
  cases d with
  | null => exact absurd rfl h
  | _ => rfl

theorem readAs?_orderedSet [Sortable α] : (readAs? reading d : Option (OrderedSet α)) =
    (readAs? reading d).map OrderedSet.ofList := rfl

theorem readAs?_condition : (readAs? reading d : Option Condition) =
    (readAs? reading d : Option (OrderedSet Platform)).bind Condition.ofSet? := rfl

variable [ReadsBack α]

theorem mapM_readAs?_encode : ∀ as : List α, (as.map encode).mapM (readAs? reading) = some as
  | [] => rfl
  | a :: as => by
    rw [List.map_cons, List.mapM_cons, ReadsBack.readAs?_encode, mapM_readAs?_encode as]
    rfl

instance : ReadsBack (List α) := ⟨fun _ => mapM_readAs?_encode⟩

instance [NeverNull α] : ReadsBack (Option α) where
  readAs?_encode reading
    | none => rfl
    | some a => by
      change readAs? reading (encode a) = some (some a)
      rw [readAs?_option (NeverNull.encode_ne_null a), ReadsBack.readAs?_encode, Option.map_some]

instance [Sortable α] : ReadsBack (OrderedSet α) where
  readAs?_encode reading s := by
    change readAs? reading (encode s.toList) = some s
    rw [readAs?_orderedSet, ReadsBack.readAs?_encode, Option.map_some, OrderedSet.ofList_toList]

end

instance : ReadsBack Condition where
  readAs?_encode reading c := by
    change readAs? reading (encode c.platforms) = some c
    rw [readAs?_condition, ReadsBack.readAs?_encode, Option.bind_some, Condition.ofSet?,
      dif_neg c.nonempty]

end

/-! ## Fields by name -/

theorem FieldReader.bind_apply {α β : Type} {reading : Reading} {fields : Fields}
    (m : FieldReader α) (f : α → FieldReader β) :
    (m >>= f) reading fields = (m reading fields).bind fun p => f p.1 reading p.2 := rfl

def FieldReader.Gives {α : Type} (reader : FieldReader α) (reading : Reading)
    (entries : List (String × Document)) (a : α) : Prop :=
  reader reading (.named entries) = some (a, .named entries)

namespace FieldReader.Gives

section
variable {α β : Type} {reading : Reading} {entries : List (String × Document)} {name : String}
  {a : α} {b : β}

theorem pure : Gives (pure a) reading entries a := rfl

theorem bind {m : FieldReader α} {f : α → FieldReader β} (hm : m.Gives reading entries a)
    (hf : (f a).Gives reading entries b) : (m >>= f).Gives reading entries b := by
  rw [Gives, bind_apply, hm]
  exact hf

variable [Documented α] [ReadsBack α]

theorem content : (FieldReader.content readAs? (encode a)).Gives reading entries a :=
  congrArg (Option.map _) (ReadsBack.readAs?_encode reading a)

theorem required (h : entries.lookup name = some (encode a)) :
    (FieldReader.required name).Gives reading entries a := by
  change Gives (_ >>= _) reading entries a
  refine .bind (a := some (encode a)) ?_ content
  exact congrArg (fun d => some (d, Fields.named entries)) h

theorem withDefault {default : α} (h : entries.lookup name = some (encode a)) :
    (FieldReader.withDefault name default).Gives reading entries a := by
  change Gives (_ >>= _) reading entries a
  refine .bind (a := some (encode a)) ?_ content
  exact congrArg (fun d => some (d, Fields.named entries)) h

theorem optional [NeverNull α] {found : Option α} (h : entries.lookup name = some (encode found)) :
    (FieldReader.optional name).Gives reading entries found :=
  withDefault h

end

end FieldReader.Gives

theorem FieldReader.read?_record {α : Type} (reader : FieldReader α) {reading : Reading}
    {entries : List (String × Document)} {a : α} (h : reader.Gives reading entries a) :
    reader.read? true reading (.record entries) = some a :=
  congrArg (Option.map _) h

theorem Forms.read?_tagged {α : Type} {forms : Forms α} {tag form : String}
    {entries : List (String × Document)} {reader : FieldReader α} {a : α} (reading : Reading)
    (hform : forms.lookup form = some reader)
    (ha : reader.Gives .lax ((tag, .text form) :: entries) a) :
    forms.read? tag reading (.tagged tag form entries) = some a := by
  unfold FieldReader.Gives at ha
  simp [read?, Document.tagged, named?, hform, ha]

theorem Forms.exists_of_read?_record {α : Type} {forms : Forms α} {tag : String}
    {entries : List (String × Document)} {a : α}
    (h : forms.read? tag .strict (.record entries) = some a) :
    ∃ form ∈ forms, ∃ fields, form.2 .lax (.named entries) = some (a, fields) := by
  simp only [read?, Option.bind_eq_bind, Option.bind_eq_some_iff, Option.map_eq_some_iff] at h
  obtain ⟨d, -, reader, hreader, ⟨b, fields⟩, hread, rfl⟩ := h
  cases d with
  | text name =>
    obtain ⟨before, after, hforms, -⟩ := List.lookup_eq_some_iff.1 hreader
    exact ⟨(name, reader), by simp [hforms], fields, hread⟩
  | int i => cases i <;> cases hreader
  | _ => cases hreader

/-! ## Binaries and keys -/

instance : ReadsBack XcframeworkSlice where
  readAs?_encode _ s := by
    refine FieldReader.read?_record XcframeworkSlice.fields (a := s) ?_
    exact .bind (.required rfl) (.bind (.required rfl) (.bind (.required rfl)
      (.bind (.required rfl) (.bind (.required rfl) .pure))))

instance : ReadsBack XcframeworkInfo where
  readAs?_encode _ info := by
    refine FieldReader.read?_record XcframeworkInfo.fields (a := info) ?_
    exact .bind (.required rfl) .pure

instance : ReadsBack BinaryOrigin where
  readAs?_encode reading origin := by
    change BinaryOrigin.forms.read? "kind" reading origin.encode = some origin
    cases origin with
    | framework => exact Forms.read?_tagged reading rfl .pure
    | library headers moduleMap =>
      exact Forms.read?_tagged reading rfl (.bind (.required rfl) (.bind (.optional rfl) .pure))
    | xcframework info => exact Forms.read?_tagged reading rfl (.bind (.required rfl) .pure)

section
variable {reading : Reading} {entries : List (String × Document)}

theorem Prebuilt.gives_fields {b : Prebuilt}
    (h : ∀ name, name ≠ "type" → entries.lookup name = b.entries.lookup name) :
    Prebuilt.fields.Gives reading entries b :=
  .bind (.required (h "path" (by decide))) <|
  .bind (.required (h "binary_path" (by decide))) <|
  .bind (.required (h "linking" (by decide))) <|
  .bind (.required (h "architectures" (by decide))) <|
  .bind (.optional (h "dsym_path" (by decide))) <|
  .bind (.required (h "bcsymbolmap_paths" (by decide))) <|
  .bind (.required (h "origin" (by decide))) <|
  .bind (.required (h "status" (by decide))) <|
  .bind (.required (h "mergeable" (by decide))) .pure

theorem TargetId.gives_fields {id : TargetId}
    (h : ∀ name, name ≠ "type" → entries.lookup name = id.entries.lookup name) :
    TargetId.fields.Gives reading entries id :=
  .bind (.required (h "project_path" (by decide))) <|
  .bind (.required (h "name" (by decide))) .pure

theorem lookup_typed {form name : String} (hname : name ≠ "type") :
    (("type", .text form) :: entries).lookup name = entries.lookup name := by
  rw [List.lookup_cons, beq_false_of_ne hname]

end

instance : ReadsBack Prebuilt where
  readAs?_encode _ _ :=
    FieldReader.read?_record Prebuilt.fields (Prebuilt.gives_fields fun _ _ => rfl)

instance : ReadsBack NodeKey where
  readAs?_encode reading key := by
    change NodeKey.forms.read? "type" reading key.encode = some key
    cases key with
    | target id =>
      exact Forms.read?_tagged reading rfl
        (.bind (TargetId.gives_fields fun _ => lookup_typed) .pure)
    | prebuilt b =>
      exact Forms.read?_tagged reading rfl
        (.bind (Prebuilt.gives_fields fun _ => lookup_typed) .pure)
    | packageProduct projectPath product use =>
      exact Forms.read?_tagged reading rfl
        (.bind (.required rfl) (.bind (.required rfl) (.bind (.required rfl) .pure)))
    | sdk name path status source =>
      exact Forms.read?_tagged reading rfl (.bind (.required rfl) (.bind (.required rfl)
        (.bind (.required rfl) (.bind (.required rfl) .pure))))
    | bundle path | macroExecutable path =>
      exact Forms.read?_tagged reading rfl (.bind (.required rfl) .pure)

/-! ## Targets and their dependencies -/

instance : ReadsBack Merging where
  readAs?_encode reading merging := by
    change Merging.readAs? reading merging.encode = some merging
    cases merging with
    | disabled | automatic => rfl
    | manual names => exact congrArg (Option.map _) (ReadsBack.readAs?_encode reading names)

instance : ReadsBack Dependency where
  readAs?_encode reading d := by
    change Dependency.forms.read? "type" reading d.encode = some d
    cases d with
    | target name c =>
      exact Forms.read?_tagged reading rfl (.bind (.required rfl) (.bind (.withDefault rfl) .pure))
    | project name path c =>
      exact Forms.read?_tagged reading rfl
        (.bind (.required rfl) (.bind (.required rfl) (.bind (.withDefault rfl) .pure)))
    | framework path status c | xcframework path status c =>
      exact Forms.read?_tagged reading rfl
        (.bind (.required rfl) (.bind (.withDefault rfl) (.bind (.withDefault rfl) .pure)))
    | library path headers moduleMap c =>
      exact Forms.read?_tagged reading rfl (.bind (.required rfl) (.bind (.required rfl)
        (.bind (.withDefault rfl) (.bind (.withDefault rfl) .pure))))
    | sdk name status c | package name status c =>
      exact Forms.read?_tagged reading rfl
        (.bind (.required rfl) (.bind (.withDefault rfl) (.bind (.withDefault rfl) .pure)))
    | bundle path c =>
      exact Forms.read?_tagged reading rfl (.bind (.required rfl) (.bind (.withDefault rfl) .pure))
    | xctest => exact Forms.read?_tagged reading rfl .pure

instance : ReadsBack Target where
  readAs?_encode _ t := by
    refine FieldReader.read?_record Target.fields (a := t) ?_
    exact .bind (.required rfl) <| .bind (.required rfl) <| .bind (.withDefault rfl) <|
      .bind (.withDefault rfl) <| .bind (.withDefault rfl) <| .bind (.withDefault rfl) <|
      .bind (.withDefault rfl) <| .bind (.withDefault rfl) <| .bind (.withDefault rfl) .pure

/-! ## Projects and workspaces -/

instance : ReadsBack Project where
  readAs?_encode _ p := by
    refine FieldReader.read?_record Project.fields (a := p) ?_
    exact .bind (.required rfl) <| .bind (.required rfl) <| .bind (.withDefault rfl) <|
      .bind (.withDefault rfl) .pure

instance : ReadsBack Workspace where
  readAs?_encode _ w := by
    refine FieldReader.read?_record Workspace.fields (a := w) ?_
    exact .bind (.required rfl) <| .bind (.required rfl) <| .bind (.withDefault rfl) .pure

/-! ## Conditions -/

theorem OrderedSet.ofList_eq_nil {α : Type} [Sortable α] {xs : List α} :
    (OrderedSet.ofList xs).toList = [] ↔ xs = [] := by
  cases xs with
  | nil => exact iff_of_true rfl rfl
  | cons x xs =>
    have hne := insertAll_ne_nil xs (insert_ne_nil empty x)
    exact iff_of_false hne (List.cons_ne_nil x xs)

theorem Condition.ofSet?_eq_some {platforms : OrderedSet Platform} {c : Condition} :
    ofSet? platforms = some c ↔ platforms.toList ≠ [] ∧ c.platforms = platforms := by
  unfold ofSet?
  by_cases h : platforms.toList = []
  · simp [h]
  · obtain ⟨ps, hps⟩ := c
    simp [h, eq_comm]

theorem decode?_condition {d : Document} {c : Condition} : decode? d = some c ↔
    ∃ ps : List Platform, decode? d = some ps ∧ ps ≠ [] ∧ c.platforms = .ofList ps := by
  unfold decode?
  rw [readAs?_condition, readAs?_orderedSet]
  cases (readAs? .strict d : Option (List Platform)) with
  | none => simp
  | some ps => simp [Condition.ofSet?_eq_some, OrderedSet.ofList_eq_nil]

/-! ## Conditions in dependencies -/

namespace FieldReader

section
variable {α β : Type} {reading : Reading} {entries : List (String × Document)} {name : String}

/-- A reader that takes fields by name, if it reads anything. -/
def Keeps (m : FieldReader α) : Prop :=
  ∀ reading entries p, m reading (.named entries) = some p → p.2 = .named entries

def Fails (m : FieldReader α) (reading : Reading) (entries : List (String × Document)) : Prop :=
  m reading (.named entries) = none

theorem Fails.bind {m : FieldReader α} {f : α → FieldReader β} (hm : m.Fails reading entries) :
    (m >>= f).Fails reading entries := by
  rw [Fails, bind_apply, hm, Option.bind_none]

theorem Fails.after {m : FieldReader α} {f : α → FieldReader β} (hm : m.Keeps)
    (hf : ∀ a, (f a).Fails reading entries) : (m >>= f).Fails reading entries := by
  rw [Fails, bind_apply]
  cases hp : m reading (.named entries) with
  | none => rfl
  | some p =>
    rw [Option.bind_some, hm reading entries p hp]
    exact hf p.1

theorem Gives.bind_fails {m : FieldReader α} {f : α → FieldReader β} {a : α}
    (hm : m.Gives reading entries a) (hf : (f a).Fails reading entries) :
    (m >>= f).Fails reading entries := by
  rw [Fails, bind_apply, hm]
  exact hf

theorem Keeps.bind {m : FieldReader α} {f : α → FieldReader β} (hm : m.Keeps)
    (hf : ∀ a, (f a).Keeps) : (m >>= f).Keeps := by
  intro reading entries p hp
  rw [bind_apply, Option.bind_eq_some_iff] at hp
  obtain ⟨q, hq, hp⟩ := hp
  rw [hm reading entries q hq] at hp
  exact hf q.1 reading entries p hp

theorem keeps_next : (next name).Keeps := by
  intro reading entries p hp
  cases hp
  rfl

theorem keeps_pure (a : α) : (pure a : FieldReader α).Keeps := by
  intro reading entries p hp
  cases hp
  rfl

variable [Documented α]

theorem keeps_content (d : Document) : (content readAs? d : FieldReader α).Keeps := by
  intro reading entries p hp
  obtain ⟨a, -, rfl⟩ := Option.map_eq_some_iff.1 hp
  rfl

theorem keeps_required : (required name : FieldReader α).Keeps :=
  keeps_next.bind fun
    | none => fun _ _ _ h => nomatch h
    | some d => keeps_content d

theorem keeps_withDefault {default : α} : (withDefault name default).Keeps :=
  keeps_next.bind fun
    | none => keeps_pure default
    | some d => keeps_content d

theorem fails_withDefault {default : α} {d : Document} (h : entries.lookup name = some d)
    (hd : (readAs? reading d : Option α) = none) :
    (withDefault name default).Fails reading entries := by
  change Fails (_ >>= _) reading entries
  refine Gives.bind_fails (a := some d) ?_ (congrArg (Option.map _) hd)
  exact congrArg (fun d => some (d, Fields.named entries)) h

end

end FieldReader

open FieldReader in
theorem Dependency.form_without_platforms {entries : List (String × Document)}
    (h : entries.lookup "condition" = some (.list [])) {form : String × FieldReader Dependency}
    (hform : form ∈ forms) :
    form.2.Fails .lax entries ∨ form.2.Gives .lax entries .xctest := by
  have hcondition : conditionField.Fails .lax entries := fails_withDefault h rfl
  simp only [forms, List.mem_cons, List.not_mem_nil, or_false] at hform
  rcases hform with rfl | rfl | rfl | rfl | rfl | rfl | rfl | rfl | rfl
  · exact .inl (.after keeps_required fun _ => hcondition.bind)
  · exact .inl (.after keeps_required fun _ => .after keeps_required fun _ => hcondition.bind)
  · exact .inl (.after keeps_required fun _ => .after keeps_withDefault fun _ => hcondition.bind)
  · exact .inl (.after keeps_required fun _ => .after keeps_required fun _ =>
      .after keeps_withDefault fun _ => hcondition.bind)
  · exact .inl (.after keeps_required fun _ => .after keeps_withDefault fun _ => hcondition.bind)
  · exact .inl (.after keeps_required fun _ => .after keeps_withDefault fun _ => hcondition.bind)
  · exact .inl (.after keeps_required fun _ => .after keeps_withDefault fun _ => hcondition.bind)
  · exact .inl (.after keeps_required fun _ => hcondition.bind)
  · exact .inr .pure

theorem decode?_without_platforms {entries : List (String × Document)}
    (h : entries.lookup "condition" = some (.list [])) :
    (decode? (.record entries) : Option Dependency) = none ∨
      (decode? (.record entries) : Option Dependency) = some .xctest := by
  cases hd : (decode? (.record entries) : Option Dependency) with
  | none => exact .inl rfl
  | some d =>
    obtain ⟨form, hform, fields, hread⟩ := Forms.exists_of_read?_record hd
    rcases Dependency.form_without_platforms h hform with hnone | hxctest
    · cases hread.symm.trans hnone
    · cases hread.symm.trans hxctest
      exact .inr rfl

/-! ## Descriptions -/

/-- Values survive being written and read, and so does what any document is read as. -/
def IsRecovered (α : Type) [Documented α] : Prop :=
  (∀ a : α, decode? (encode a) = some a) ∧
    ∀ d, ((decode? d : Option α).map encode).bind decode? = (decode? d : Option α)

theorem isRecovered (α : Type) [Documented α] [ReadsBack α] : IsRecovered α := by
  have hback : ∀ a : α, decode? (encode a) = some a := ReadsBack.readAs?_encode .strict
  refine ⟨hback, fun d => ?_⟩
  cases (decode? d : Option α) with
  | none => rfl
  | some a => exact hback a

/-- Every part of a description is read back as it was written, and a document that is
accepted is read again from what is written for it. No document stands for a condition
without platforms, neither alone nor in a dependency. -/
theorem descriptions_read_back :
    (IsRecovered Workspace ∧ IsRecovered Project ∧ IsRecovered Target ∧ IsRecovered Dependency ∧
      IsRecovered Merging ∧ IsRecovered Condition ∧ IsRecovered Prebuilt ∧
      IsRecovered BinaryOrigin ∧ IsRecovered NodeKey) ∧
    (∀ (d : Document) (c : Condition), decode? d = some c ↔
      ∃ ps : List Platform, decode? d = some ps ∧ ps ≠ [] ∧ c.platforms = .ofList ps) ∧
    ∀ entries, entries.lookup "condition" = some (.list []) →
      (decode? (.record entries) : Option Dependency) = none ∨
        (decode? (.record entries) : Option Dependency) = some .xctest :=
  ⟨⟨isRecovered _, isRecovered _, isRecovered _, isRecovered _, isRecovered _, isRecovered _,
      isRecovered _, isRecovered _, isRecovered _⟩,
    fun _ _ => decode?_condition, fun _ => decode?_without_platforms⟩

end BuildGraph
