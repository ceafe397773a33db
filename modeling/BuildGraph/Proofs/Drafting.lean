import BuildGraph.Proofs.Interning
import BuildGraph.Draft

/-!
# Drafts made by calls

A graph is built from a draft that some sequence of calls made. The calls alone say
which keys the draft has, where one depends on another, and which projects are known;
their order is seen in the spelling of keys and in the numbers of nodes only.
-/

namespace BuildGraph

inductive DraftCall where
  | limit (maxDepth : Nat)
  | register (p : Project)
  | intern (key : NodeKey)
  | declare (source target : NodeKey) (condition : Option Condition)

namespace DraftCall

def mentioned : DraftCall → List NodeKey
  | limit _ => []
  | register p => p.targets.map fun t => .ofTarget p.path t.name
  | intern key => [key]
  | declare source target _ => [source, target]

def project? : DraftCall → Option Project
  | register p => some p
  | _ => none

def node? : DraftCall → Option NodeKey
  | intern key => some key
  | _ => none

def edge? : DraftCall → Option (NodeKey × NodeKey × Option Condition)
  | declare source target condition => some (source, target, condition)
  | _ => none

end DraftCall

namespace Draft

def call (d : Draft) : DraftCall → Draft
  | .limit n => { d with maxDepth := n }
  | .register p => d.register p
  | .intern key => (d.intern key).2
  | .declare source target condition => d.declare source target condition

def ofCalls (workspace : Workspace) (calls : List DraftCall) : Draft :=
  calls.foldl call { workspace }

end Draft

/-- Graphs that come out of the calls on some draft. -/
def Graph.IsBuilt (g : Graph) : Prop :=
  ∃ workspace calls, (Draft.ofCalls workspace calls).build = .ok g

/-! ## Lookups in a project table -/

namespace ProjectTable

variable {table : ProjectTable} {path : Path}

theorem at?_eq_some {entry : ProjectEntry} (h : table.at? path = some entry) :
    entry ∈ table ∧ sortKey entry.path = sortKey path := by
  have hsame : same entry.path path = true := by
    simpa using List.find?_some (p := fun e : ProjectEntry => same e.path path) h
  exact ⟨List.mem_of_find?_eq_some h, same_iff.1 hsame⟩

theorem at?_eq_none (h : table.at? path = none) :
    ∀ entry ∈ table, sortKey entry.path ≠ sortKey path := by
  intro entry he hp
  exact List.find?_eq_none.1 h entry he (same_iff.2 hp)

end ProjectTable

namespace Wiring

/-! ## Registering the targets of a project -/

theorem WellFormed.internAll {w : Wiring} (hw : w.WellFormed) (keys : List NodeKey) :
    (keys.foldl (fun w key => (w.intern key).2) w).WellFormed := by
  induction keys generalizing w with
  | nil => exact hw
  | cons key keys ih => exact ih (hw.intern key)

theorem depends_internAll {x : Place} {k l : SortKey} : ∀ {w : Wiring}, w.WellFormed →
    ∀ keys : List NodeKey,
      (keys.foldl (fun w key => (w.intern key).2) w).Depends x k l ↔ w.Depends x k l
  | _, _, [] => Iff.rfl
  | w, hw, key :: keys =>
    (depends_internAll (hw.intern key) keys).trans ((w.intern_spec key).depends hw)

theorem mem_keys_internAll {k : SortKey} : ∀ (keys : List NodeKey) (w : Wiring),
    k ∈ (keys.foldl (fun w key => (w.intern key).2) w).keys.map sortKey ↔
      k ∈ w.keys.map sortKey ∨ k ∈ keys.map sortKey
  | [], w => by simp
  | key :: keys, w => by
    rw [List.foldl_cons, mem_keys_internAll keys, (w.intern_spec key).keys, List.map_cons,
      List.mem_cons, or_assoc]

theorem spelled_internAll {k : NodeKey} : ∀ (keys : List NodeKey) (w : Wiring),
    k ∈ (keys.foldl (fun w key => (w.intern key).2) w).keys → k ∈ w.keys ∨ k ∈ keys
  | [], _, h => .inl h
  | key :: keys, w, h => by
    rcases spelled_internAll keys _ h with h | h
    · rcases (w.intern_spec key).spelled k h with h | rfl
      · exact .inl h
      · exact .inr (List.mem_cons_self ..)
    · exact .inr (List.mem_cons_of_mem _ h)

end Wiring

namespace Draft

theorem wiring_register (d : Draft) (p : Project) : (d.register p).wiring =
    (p.targets.map fun t => NodeKey.ofTarget p.path t.name).foldl
      (fun w key => (w.intern key).2) d.wiring := by
  rw [List.foldl_map]
  rfl

/-! ## One call -/

section
variable {d : Draft}

theorem wellFormed_call (hd : d.wiring.WellFormed) (c : DraftCall) :
    (d.call c).wiring.WellFormed := by
  cases c with
  | limit n => exact hd
  | register p => exact wiring_register d p ▸ hd.internAll _
  | intern key => exact hd.intern key
  | declare a b c => exact hd.connect a b c

theorem depends_call (hd : d.wiring.WellFormed) (c : DraftCall) {x : Place} {k l : SortKey} :
    (d.call c).wiring.Depends x k l ↔ d.wiring.Depends x k l ∨
      ∃ a b cond, c = .declare a b cond ∧ sortKey a = k ∧ sortKey b = l ∧
        Condition.appliesAt cond x = true := by
  cases c with
  | limit n => simp [call]
  | register p =>
    have := Wiring.depends_internAll (x := x) (k := k) (l := l) hd
      (p.targets.map fun t => NodeKey.ofTarget p.path t.name)
    simp only [call, wiring_register, this, reduceCtorEq, false_and, exists_false, or_false]
  | intern key =>
    have := (d.wiring.intern_spec key).depends hd (x := x) (k := k) (l := l)
    simpa [call, Draft.intern] using this
  | declare a b cond =>
    refine (Wiring.depends_connect hd a b cond).trans (or_congr_right ?_)
    constructor
    · rintro ⟨hk, hl, hx⟩
      exact ⟨a, b, cond, rfl, hk, hl, hx⟩
    · rintro ⟨_, _, _, h, hk, hl, hx⟩
      cases h
      exact ⟨hk, hl, hx⟩

theorem mem_keys_call (d : Draft) (c : DraftCall) {k : SortKey} :
    k ∈ (d.call c).wiring.keys.map sortKey ↔
      k ∈ d.wiring.keys.map sortKey ∨ k ∈ c.mentioned.map sortKey := by
  cases c with
  | limit n => simp [call, DraftCall.mentioned]
  | register p => rw [call, wiring_register, Wiring.mem_keys_internAll]; rfl
  | intern key =>
    have := (d.wiring.intern_spec key).keys k
    simpa [call, Draft.intern, DraftCall.mentioned] using this
  | declare a b cond =>
    have := Wiring.mem_keys_connect d.wiring a b cond (k := k)
    simpa [call, Draft.declare, DraftCall.mentioned] using this

theorem spelled_call (d : Draft) (c : DraftCall) {k : NodeKey}
    (hk : k ∈ (d.call c).wiring.keys) : k ∈ d.wiring.keys ∨ k ∈ c.mentioned := by
  cases c with
  | limit n => exact .inl hk
  | register p =>
    rw [call, wiring_register] at hk
    exact Wiring.spelled_internAll _ _ hk
  | intern key =>
    have := (d.wiring.intern_spec key).spelled k hk
    simpa [DraftCall.mentioned] using this
  | declare a b cond =>
    have := Wiring.spelled_connect d.wiring a b cond hk
    simpa [DraftCall.mentioned] using this

end

/-! ## All calls -/

theorem wellFormed_foldl (calls : List DraftCall) {d : Draft} (hd : d.wiring.WellFormed) :
    (calls.foldl call d).wiring.WellFormed := by
  induction calls generalizing d with
  | nil => exact hd
  | cons c calls ih => exact ih (wellFormed_call hd c)

theorem wellFormed_empty : ({} : Wiring).WellFormed := by
  refine ⟨.nil, ?_, ?_, .nil⟩ <;> exact fun _ h => nomatch h

theorem wellFormed_ofCalls (workspace : Workspace) (calls : List DraftCall) :
    (ofCalls workspace calls).wiring.WellFormed :=
  wellFormed_foldl calls wellFormed_empty

theorem depends_foldl {x : Place} {k l : SortKey} : ∀ (calls : List DraftCall) {d : Draft},
    d.wiring.WellFormed → ((calls.foldl call d).wiring.Depends x k l ↔ d.wiring.Depends x k l ∨
      ∃ a b c, .declare a b c ∈ calls ∧ sortKey a = k ∧ sortKey b = l ∧
        Condition.appliesAt c x = true)
  | [], _, _ => by simp
  | c :: calls, d, hd => by
    rw [List.foldl_cons, depends_foldl calls (wellFormed_call hd c), depends_call hd c, or_assoc]
    refine or_congr_right ?_
    constructor
    · rintro (⟨a, b, cond, rfl, h⟩ | ⟨a, b, cond, hm, h⟩)
      · exact ⟨a, b, cond, List.mem_cons_self .., h⟩
      · exact ⟨a, b, cond, List.mem_cons_of_mem _ hm, h⟩
    · rintro ⟨a, b, cond, hm, h⟩
      rcases List.mem_cons.1 hm with rfl | hm
      · exact .inl ⟨a, b, cond, rfl, h⟩
      · exact .inr ⟨a, b, cond, hm, h⟩

theorem depends_ofCalls (workspace : Workspace) (calls : List DraftCall) {x : Place}
    {k l : SortKey} : (ofCalls workspace calls).wiring.Depends x k l ↔
      ∃ a b c, .declare a b c ∈ calls ∧ sortKey a = k ∧ sortKey b = l ∧
        Condition.appliesAt c x = true := by
  rw [ofCalls, depends_foldl calls wellFormed_empty, or_iff_right]
  rintro ⟨e, he, -⟩
  exact nomatch he

theorem mem_keys_foldl {k : SortKey} : ∀ (calls : List DraftCall) (d : Draft),
    k ∈ (calls.foldl call d).wiring.keys.map sortKey ↔
      k ∈ d.wiring.keys.map sortKey ∨ ∃ c ∈ calls, k ∈ c.mentioned.map sortKey
  | [], d => by simp
  | c :: calls, d => by
    rw [List.foldl_cons, mem_keys_foldl calls, mem_keys_call, or_assoc]
    simp only [List.mem_cons, exists_eq_or_imp]

theorem mem_keys_ofCalls (workspace : Workspace) (calls : List DraftCall) {k : SortKey} :
    k ∈ (ofCalls workspace calls).wiring.keys.map sortKey ↔
      ∃ c ∈ calls, k ∈ c.mentioned.map sortKey := by
  rw [ofCalls, mem_keys_foldl, or_iff_right (by simp)]

theorem spelled_foldl {k : NodeKey} : ∀ (calls : List DraftCall) (d : Draft),
    k ∈ (calls.foldl call d).wiring.keys → k ∈ d.wiring.keys ∨ ∃ c ∈ calls, k ∈ c.mentioned
  | [], _, h => .inl h
  | c :: calls, d, h => by
    rcases spelled_foldl calls _ h with h | ⟨c', hc', h⟩
    · rcases spelled_call d c h with h | h
      · exact .inl h
      · exact .inr ⟨c, List.mem_cons_self .., h⟩
    · exact .inr ⟨c', List.mem_cons_of_mem _ hc', h⟩

theorem spelled_ofCalls (workspace : Workspace) (calls : List DraftCall) {k : NodeKey}
    (hk : k ∈ (ofCalls workspace calls).wiring.keys) : ∃ c ∈ calls, k ∈ c.mentioned := by
  rcases spelled_foldl calls _ hk with h | h
  · exact nomatch h
  · exact h

theorem projects_foldl : ∀ (calls : List DraftCall) (d : Draft),
    (calls.foldl call d).projects =
      ((calls.filterMap DraftCall.project?).map ProjectEntry.ofProject).foldl
        (fun table entry => insertBy sortKey ProjectEntry.replaceProject entry table) d.projects
  | [], _ => rfl
  | c :: calls, d => by
    rw [List.foldl_cons, projects_foldl calls]
    cases c <;> rfl

theorem projects_ofCalls (workspace : Workspace) (calls : List DraftCall) :
    (ofCalls workspace calls).projects =
      collectBy sortKey ProjectEntry.replaceProject
        ((calls.filterMap DraftCall.project?).map ProjectEntry.ofProject) :=
  projects_foldl calls _

theorem workspace_ofCalls (workspace : Workspace) (calls : List DraftCall) :
    (ofCalls workspace calls).workspace = workspace := by
  have keep : ∀ (calls : List DraftCall) (d : Draft),
      (calls.foldl call d).workspace = d.workspace := by
    intro calls
    induction calls with
    | nil => intro d; rfl
    | cons c calls ih => intro d; rw [List.foldl_cons, ih]; cases c <;> rfl
  exact keep calls _

theorem keepsKey_replaceProject : KeepsKey sortKey ProjectEntry.replaceProject :=
  fun _ _ _ => rfl

theorem projects_increasing (workspace : Workspace) (calls : List DraftCall) :
    IncreasingBy sortKey (ofCalls workspace calls).projects := by
  rw [projects_ofCalls]
  exact collectBy_increasing keepsKey_replaceProject _

end Draft

end BuildGraph
