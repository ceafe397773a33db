import BuildGraph.Proofs.Validation
import BuildGraph.Wiring.PathCondition

/-!
# Net conditions are unions over all routes

Without cycles the stack of a lookup is worked off, whatever was looked up before, and
each result is kept only when those of all successors are known. So every result that a
memo holds applies exactly where the conditions along some route all apply.
-/

namespace BuildGraph.Wiring

/-- The net condition applies where all conditions along some route do. -/
def IsNet (w : Wiring) (a b : Nat) (net : NetCondition) : Prop :=
  ∀ x, net.appliesAt x = true ↔
    ∃ es, w.IsRoute a es b ∧ ∀ e ∈ es, Condition.appliesAt e.condition x = true

def overRoutes (routes : List (List Edge)) : NetCondition :=
  routes.foldl (fun net es => net.join (.ofPath (es.map (·.condition)))) .incompatible

section
variable {w : Wiring}

theorem IsNet.unique {a b : Nat} {net net' : NetCondition} (h : w.IsNet a b net)
    (h' : w.IsNet a b net') : net = net' :=
  NetCondition.eq_of_appliesAt fun x => (h x).trans (h' x).symm

theorem isNet_overRoutes {a b : Nat} {routes : List (List Edge)}
    (h : ∀ es, es ∈ routes ↔ w.IsRoute a es b) : w.IsNet a b (overRoutes routes) := by
  intro x
  rw [overRoutes, NetCondition.appliesAt_foldl_join]
  simp only [NetCondition.appliesAt_incompatible, Bool.false_eq_true, false_or,
    NetCondition.appliesAt_ofPath, List.forall_mem_map, h]

/-! ## The columns -/

theorem lookup_cons {β : Type} {u v : Nat} {b : β} {entries : List (Nat × β)} :
    List.lookup u ((v, b) :: entries) = if u = v then some b else entries.lookup u := by
  by_cases h : u = v
  · simp [h]
  · simp only [List.lookup_cons, beq_eq_false_iff_ne.2 h, if_neg h]

namespace Column

def Right (w : Wiring) (destination : Nat) (column : ConditionColumn) : Prop :=
  ∀ v net, column.lookup v = some net → w.IsNet v destination net

def Extends (column column' : ConditionColumn) : Prop :=
  ∀ v net, column.lookup v = some net → column'.lookup v = some net

variable {column column' : ConditionColumn} {destination : Nat}

theorem Extends.isSome (h : Extends column column') {v : Nat}
    (hv : (column.lookup v).isSome = true) : (column'.lookup v).isSome = true := by
  obtain ⟨net, hnet⟩ := Option.isSome_iff_exists.1 hv
  rw [h v net hnet]
  rfl

theorem extends_cons {v : Nat} {net : NetCondition} (hv : (column.lookup v).isSome ≠ true) :
    Extends column ((v, net) :: column) := by
  intro u found hu
  rw [lookup_cons, if_neg]
  · exact hu
  · rintro rfl
    exact hv (by rw [hu]; rfl)

theorem Right.cons (h : Right w destination column) {v : Nat} {net : NetCondition}
    (hnet : w.IsNet v destination net) : Right w destination ((v, net) :: column) := by
  intro u found hu
  rw [lookup_cons] at hu
  split at hu
  · rename_i huv
    cases hu
    exact huv ▸ hnet
  · exact h u found hu

theorem Right.conditionIn (h : Right w destination column) {v : Nat}
    (hv : (column.lookup v).isSome = true) : w.IsNet v destination (conditionIn column v) := by
  obtain ⟨net, hnet⟩ := Option.isSome_iff_exists.1 hv
  rw [Wiring.conditionIn, hnet, Option.getD_some]
  exact h v net hnet

end Column

open Column

theorem isNet_self (b : Nat) : w.IsNet b b .unconditional := by
  intro x
  refine iff_of_true rfl ⟨[], rfl, ?_⟩
  exact fun _ h => nomatch h

theorem isNet_throughSuccessors (hw : w.WellFormed) {column : ConditionColumn} {a b : Nat}
    (hne : a ≠ b) (hright : Right w b column)
    (hall : ∀ s ∈ w.successors a, (column.lookup s).isSome = true) :
    w.IsNet a b (w.throughSuccessors column a) := by
  intro x
  rw [throughSuccessors, NetCondition.appliesAt_foldl_join]
  simp only [NetCondition.appliesAt_incompatible, Bool.false_eq_true, false_or,
    NetCondition.appliesAt_meet]
  constructor
  · rintro ⟨s, hs, hnet, hcond⟩
    obtain ⟨es, hes, happ⟩ := (hright.conditionIn (hall s hs) x).1 hnet
    obtain ⟨e, he, rfl, rfl⟩ := mem_successors.1 hs
    rw [hw.conditionOn he] at hcond
    exact ⟨e :: es, ⟨he, rfl, hes⟩, List.forall_mem_cons.2 ⟨hcond, happ⟩⟩
  · rintro ⟨es, hes, happ⟩
    cases es with
    | nil => exact absurd hes hne
    | cons e es =>
      obtain ⟨he, rfl, hes⟩ := hes
      have hs : e.target ∈ w.successors e.source := mem_successors.2 ⟨e, he, rfl, rfl⟩
      obtain ⟨hcond, happ⟩ := List.forall_mem_cons.1 happ
      exact ⟨e.target, hs, (hright.conditionIn (hall _ hs) x).2 ⟨es, hes, happ⟩,
        by rwa [hw.conditionOn he]⟩

/-! ## Working off the stack -/

/-- The nodes come off the stack, each with a result, and no result is lost. -/
def Settles (w : Wiring) (destination : Nat) (ns : List Nat) : Prop :=
  ∀ column stack, Right w destination column → ∃ column',
    w.settle destination column (ns.map (·, false) ++ stack) =
        w.settle destination column' stack ∧
      Right w destination column' ∧ Extends column column' ∧
      ∀ n ∈ ns, (column'.lookup n).isSome = true

theorem settles_of_forall {b : Nat} : ∀ {ns : List Nat}, (∀ n ∈ ns, w.Settles b [n]) →
    w.Settles b ns
  | [], _ => fun column _ hright =>
    ⟨column, rfl, hright, fun _ _ h => h, fun _ h => nomatch h⟩
  | n :: ns, h => by
    intro column stack hright
    obtain ⟨c₁, hrun₁, hright₁, hext₁, hall₁⟩ :=
      h n (List.mem_cons_self ..) column (ns.map (·, false) ++ stack) hright
    obtain ⟨c₂, hrun₂, hright₂, hext₂, hall₂⟩ :=
      settles_of_forall (fun m hm => h m (List.mem_cons_of_mem _ hm)) c₁ stack hright₁
    refine ⟨c₂, hrun₁.trans hrun₂, hright₂, fun v net hv => hext₂ v net (hext₁ v net hv), ?_⟩
    exact List.forall_mem_cons.2 ⟨hext₂.isSome (hall₁ n (List.mem_singleton_self n)), hall₂⟩

theorem settles_single (hw : w.WellFormed) (hac : w.Acyclic) (b v : Nat) : w.Settles b [v] := by
  induction v using hac.induction with
  | step v ih =>
    intro column stack hright
    simp only [List.map_cons, List.map_nil, List.cons_append, List.nil_append,
      List.forall_mem_singleton]
    by_cases hknown : (column.lookup v).isSome = true
    · exact ⟨column, by rw [settle, if_pos hknown], hright, fun _ _ h => h, hknown⟩
    by_cases hv : v = b
    · subst hv
      exact ⟨(v, .unconditional) :: column, by rw [settle, if_neg hknown, if_pos rfl],
        hright.cons (isNet_self v), extends_cons hknown, by rw [lookup_cons, if_pos rfl]; rfl⟩
    -- first the successors that have no result yet
    generalize hns : ((w.successors v).filter fun s => (column.lookup s).isNone).reverse = ns
    have hpending : w.unsettled column v = ns.map (·, false) := by
      rw [← hns, unsettled, List.map_reverse]
    have hbelow : w.Settles b ns := by
      apply settles_of_forall
      intro s hs
      rw [← hns, List.mem_reverse] at hs
      exact ih s (List.mem_of_mem_filter hs)
    obtain ⟨c₁, hrun, hright₁, hext, hall⟩ := hbelow column ((v, true) :: stack) hright
    have hfirst : w.settle b column ((v, false) :: stack) = w.settle b c₁ ((v, true) :: stack) := by
      rw [settle, if_neg hknown, if_neg hv, if_neg Bool.false_ne_true, hpending, hrun]
    have hsucc : ∀ s ∈ w.successors v, (c₁.lookup s).isSome = true := by
      intro s hs
      by_cases hsk : (column.lookup s).isSome = true
      · exact hext.isSome hsk
      · apply hall
        rw [← hns, List.mem_reverse, List.mem_filter]
        refine ⟨hs, ?_⟩
        rwa [Option.isNone_iff_eq_none, ← Option.not_isSome_iff_eq_none]
    -- then the node itself
    by_cases hnow : (c₁.lookup v).isSome = true
    · exact ⟨c₁, by rw [hfirst, settle, if_pos hnow], hright₁, hext, hnow⟩
    · refine ⟨(v, w.throughSuccessors c₁ v) :: c₁, ?_, ?_, ?_, ?_⟩
      · rw [hfirst, settle, if_neg hnow, if_neg hv, if_pos rfl]
      · exact hright₁.cons (isNet_throughSuccessors hw hv hright₁ hsucc)
      · exact fun u net hu => extends_cons hnow u net (hext u net hu)
      · rw [lookup_cons, if_pos rfl]
        rfl

/-! ## Lookups -/

inductive Lookup where
  | between (source destination : Nat)
  | resolve (source destination : Nat)

def Lookup.run (w : Wiring) (memo : ConditionMemo) : Lookup → ConditionMemo
  | between a b => (w.between memo a b).2
  | resolve a b => (w.resolve memo a b).2

def memoAfter (w : Wiring) (lookups : List Lookup) : ConditionMemo :=
  lookups.foldl (Lookup.run w) []

def MemoRight (w : Wiring) (memo : ConditionMemo) : Prop :=
  ∀ b, Right w b (columnOf memo b)

theorem memoRight_nil : w.MemoRight [] := fun _ _ _ h => nomatch h

theorem settle_ends (hw : w.WellFormed) (hac : w.Acyclic) {b : Nat} {column : ConditionColumn}
    (h : Right w b column) (a : Nat) : ∃ column',
      w.settle b column [(a, false)] = some column' ∧ Right w b column' ∧
        (column'.lookup a).isSome = true := by
  obtain ⟨column', hrun, hright, -, hall⟩ := settles_single hw hac b a column [] h
  refine ⟨column', ?_, hright, hall a (List.mem_singleton_self a)⟩
  rw [settle] at hrun
  exact hrun

theorem between_spec (hw : w.WellFormed) (hac : w.Acyclic) {memo : ConditionMemo}
    (hmemo : w.MemoRight memo) (a b : Nat) :
    w.IsNet a b (w.between memo a b).1 ∧ w.MemoRight (w.between memo a b).2 := by
  unfold between
  by_cases hab : a = b
  · rw [if_pos hab]
    exact ⟨hab ▸ isNet_self a, hmemo⟩
  rw [if_neg hab]
  cases hknown : (columnOf memo b).lookup a with
  | some net =>
    simp only [hknown]
    exact ⟨hmemo b a net hknown, hmemo⟩
  | none =>
    obtain ⟨column, hrun, hright, hsome⟩ := settle_ends hw hac (hmemo b) a
    simp only [hknown, hrun, Option.getD_some]
    refine ⟨hright.conditionIn hsome, fun c => ?_⟩
    rw [columnOf, lookup_cons]
    by_cases hc : c = b
    · rw [if_pos hc]
      exact hc ▸ hright
    · rw [if_neg hc]
      exact hmemo c

theorem memoRight_run (hw : w.WellFormed) (hac : w.Acyclic) {memo : ConditionMemo}
    (hmemo : w.MemoRight memo) (l : Lookup) : w.MemoRight (l.run w memo) := by
  cases l with
  | between a b => exact (between_spec hw hac hmemo a b).2
  | resolve a b =>
    rw [Lookup.run, resolve]
    split
    · exact (between_spec hw hac hmemo a b).2
    · exact hmemo

theorem memoRight_memoAfter (hw : w.WellFormed) (hac : w.Acyclic) (lookups : List Lookup) :
    w.MemoRight (w.memoAfter lookups) :=
  List.foldlRecOn lookups _ memoRight_nil fun _ hmemo l _ => memoRight_run hw hac hmemo l

end

end BuildGraph.Wiring

namespace BuildGraph

/-! ## Built graphs -/

theorem Graph.IsBuilt.sound {g : Graph} (hg : g.IsBuilt) :
    g.wiring.WellFormed ∧ g.wiring.Acyclic := by
  obtain ⟨workspace, calls, hb⟩ := hg
  obtain ⟨hsound, rfl⟩ := Draft.sound_of_build hb
  exact ⟨Draft.wellFormed_ofCalls workspace calls, hsound.acyclic⟩

open Wiring in
/-- Whatever was looked up before, a lookup ends, and its result is the union over all
routes of the conditions along each: nothing where no route has a platform that all its
edges allow, no condition where some route has none, else the platforms of the routes. -/
theorem Graph.IsBuilt.between_eq_overRoutes {g : Graph} (hg : g.IsBuilt)
    (lookups : List Lookup) (a b : Nat) :
    let w := g.wiring
    let memo := w.memoAfter lookups
    let net := (w.between memo a b).1
    (w.settle b (columnOf memo b) [(a, false)]).isSome = true ∧
      ((w.routes a b).Nodup ∧ (∀ es, es ∈ w.routes a b ↔ w.IsRoute a es b) ∧
        net = overRoutes (w.routes a b)) ∧
      (net = .incompatible ↔ ¬ ∃ es, w.IsRoute a es b ∧
        ∃ p : Platform, ∀ e ∈ es, Condition.appliesAt e.condition (some p) = true) ∧
      (net = .condition none ↔ ∃ es, w.IsRoute a es b ∧ ∀ e ∈ es, e.condition = none) ∧
      ∀ c, net = .condition (some c) → ∀ p, c.contains p = true ↔
        ∃ es, w.IsRoute a es b ∧ ∀ e ∈ es, Condition.appliesAt e.condition (some p) = true := by
  intro w memo net
  obtain ⟨hw, hac⟩ := hg.sound
  have hmemo : w.MemoRight memo := memoRight_memoAfter hw hac lookups
  have hnet : w.IsNet a b net := (between_spec hw hac hmemo a b).1
  have hroutes (es : List Edge) : es ∈ w.routes a b ↔ w.IsRoute a es b := mem_routes hac
  refine ⟨?_, ⟨?_, hroutes, hnet.unique (isNet_overRoutes hroutes)⟩, ?_, ?_, ?_⟩
  · obtain ⟨column, hrun, -⟩ := settle_ends hw hac (hmemo b) a
    rw [hrun]
    rfl
  · exact routesWithin_nodup (.of_map _ hw.single) b _ a
  · rw [NetCondition.eq_incompatible_iff]
    constructor
    · rintro h ⟨es, hes, p, hp⟩
      have := (hnet (some p)).2 ⟨es, hes, hp⟩
      rw [h p] at this
      cases this
    · intro h p
      rw [← Bool.not_eq_true, hnet]
      rintro ⟨es, hes, hp⟩
      exact h ⟨es, hes, p, hp⟩
  · have happ (c : Option Condition) : Condition.appliesAt c none = true ↔ c = none := by
      cases c <;> simp
    refine NetCondition.eq_unconditional_iff.trans ((hnet none).trans ?_)
    simp only [happ]
  · intro c hc p
    rw [← hnet (some p), hc]
    rfl

def diamond : Draft :=
  let target (name : String) (product : Product) : Target := { name, product }
  let key (name : String) : NodeKey := .ofTarget ⟨"/w"⟩ name
  let sdk : NodeKey := .sdk "XCTest" ⟨"/sdk"⟩ .required .developer
  .ofCalls ⟨⟨"/w"⟩, "W", []⟩ [
    .register ⟨⟨"/w"⟩, "W", .localProject,
      [target "App" .app, target "Kit" .framework, target "Media" .framework]⟩,
    .declare (key "App") (key "Kit") none,
    .declare (key "App") (key "Media") (Condition.when? [.macos]),
    .declare (key "Kit") sdk (Condition.when? [.ios]),
    .declare (key "Media") sdk none]

theorem isBuilt_diamond : Graph.IsBuilt ⟨diamond.workspace, diamond.projects, diamond.wiring⟩ :=
  Draft.isBuilt_of_checks (by decide) (by decide) (by decide)

open Wiring in
theorem between_diamond :
    Graph.IsBuilt ⟨diamond.workspace, diamond.projects, diamond.wiring⟩ ∧
      (diamond.wiring.between (diamond.wiring.memoAfter [.between 1 3, .resolve 0 1]) 0 3).1 =
        overRoutes (diamond.wiring.routes 0 3) ∧
      overRoutes (diamond.wiring.routes 0 3) = .condition (Condition.when? [.ios, .macos]) :=
  ⟨isBuilt_diamond,
    (isBuilt_diamond.between_eq_overRoutes [.between 1 3, .resolve 0 1] 0 3).2.1.2.2, by decide⟩

end BuildGraph
