import BuildGraph.Proofs.Interning
import BuildGraph.Proofs.Route
import BuildGraph.Wiring.Reach

/-!
# What a walk reaches

The walk stays on routes whose nodes it may enter, and what it has seen in the end is
closed under the successors of the nodes that it may enter. So it sees exactly the ends
of such routes.
-/

namespace BuildGraph.Wiring

section
variable {w : Wiring} {enter : Nat → Bool}

theorem mem_unseen {seen : List Nat} {node v : Nat} :
    v ∈ w.unseen seen node ↔ w.Next node v ∧ v ∉ seen := by
  simp [unseen, Next]

/-! ## The walk -/

/-- What holds on the stack and below the nodes entered holds of all that is seen. -/
theorem walk_sound {P : Nat → Prop}
    (hP : ∀ a, P a → enter a = true → ∀ b, w.Next a b → P b) (seen stack : List Nat)
    (hseen : ∀ v ∈ seen, P v) (hstack : ∀ v ∈ stack, P v) :
    ∀ v ∈ w.walk enter seen stack, P v := by
  fun_induction walk w enter seen stack with
  | case1 seen => exact hseen
  | case2 seen node stack _ ih =>
    apply ih hseen
    intro v hv
    exact hstack v (List.mem_cons_of_mem _ hv)
  | case3 seen node stack _ henter ih =>
    have hnode : P node := hstack node (List.mem_cons_self ..)
    apply ih
    · simp only [List.mem_cons, forall_eq_or_imp]
      exact ⟨hnode, hseen⟩
    · intro v hv
      rcases List.mem_append.1 hv with hv | hv
      · exact hP node hnode henter v (mem_unseen.1 hv).1
      · exact hstack v (List.mem_cons_of_mem _ hv)
  | case4 seen node stack _ _ ih =>
    apply ih
    · simp only [List.mem_cons, forall_eq_or_imp]
      exact ⟨hstack node (List.mem_cons_self ..), hseen⟩
    · intro v hv
      exact hstack v (List.mem_cons_of_mem _ hv)

/-- Successors of entered nodes are seen or on the stack, so in the end they are seen. -/
theorem walk_closed (seen stack : List Nat)
    (h : ∀ v ∈ seen, enter v = true → ∀ s, w.Next v s → s ∈ seen ∨ s ∈ stack) :
    (∀ v, v ∈ seen ∨ v ∈ stack → v ∈ w.walk enter seen stack) ∧
      ∀ v ∈ w.walk enter seen stack, enter v = true → ∀ s, w.Next v s →
        s ∈ w.walk enter seen stack := by
  fun_induction walk w enter seen stack with
  | case1 seen => simpa using h
  | case2 seen node stack hs ih =>
    have hnode : node ∈ seen := by simpa using hs
    obtain ⟨hall, hclosed⟩ := ih fun v hv he s hsv => by
      rcases h v hv he s hsv with h | h
      · exact .inl h
      · rcases List.mem_cons.1 h with rfl | h
        · exact .inl hnode
        · exact .inr h
    refine ⟨fun v hv => ?_, hclosed⟩
    rcases hv with hv | hv
    · exact hall v (.inl hv)
    · rcases List.mem_cons.1 hv with rfl | hv
      · exact hall _ (.inl hnode)
      · exact hall v (.inr hv)
  | case3 seen node stack _ _ ih =>
    -- a successor of an entered node is seen already, or goes onto the stack now
    obtain ⟨hall, hclosed⟩ := ih fun v hv he s hsv => by
      by_cases hss : s ∈ node :: seen
      · exact .inl hss
      refine .inr (List.mem_append.2 ?_)
      rcases List.mem_cons.1 hv with rfl | hv
      · exact .inl (mem_unseen.2 ⟨hsv, hss⟩)
      · rcases h v hv he s hsv with h | h
        · exact absurd (List.mem_cons_of_mem _ h) hss
        · rcases List.mem_cons.1 h with rfl | h
          · exact absurd (List.mem_cons_self ..) hss
          · exact .inr h
    refine ⟨fun v hv => hall v ?_, hclosed⟩
    simp only [List.mem_cons, List.mem_append] at hv ⊢
    tauto
  | case4 seen node stack _ hno ih =>
    -- nothing is asked of a node that is not entered
    obtain ⟨hall, hclosed⟩ := ih fun v hv he s hsv => by
      rcases List.mem_cons.1 hv with rfl | hv
      · exact absurd he hno
      · have := h v hv he s hsv
        simp only [List.mem_cons] at this ⊢
        tauto
    refine ⟨fun v hv => hall v ?_, hclosed⟩
    simp only [List.mem_cons] at hv ⊢
    tauto

/-! ## Reaching -/

theorem mem_reach {roots : List Nat} {v : Nat} : v ∈ w.reach enter roots ↔
    ∃ r ∈ roots, ∃ es, w.IsRoute r es v ∧ ∀ e ∈ es, enter e.source = true := by
  constructor
  · intro hv
    refine walk_sound (P := fun v => ∃ r ∈ roots, ∃ es, w.IsRoute r es v ∧
      ∀ e ∈ es, enter e.source = true) ?_ [] roots.reverse ?_ ?_ v hv
    · rintro a ⟨r, hr, es, hes, hall⟩ ha b hab
      obtain ⟨e, he, rfl, rfl⟩ := mem_successors.1 hab
      refine ⟨r, hr, es ++ [e], isRoute_append.2 ⟨_, hes, isRoute_single he⟩, fun d hd => ?_⟩
      rcases List.mem_append.1 hd with hd | hd
      · exact hall d hd
      · rwa [List.mem_singleton.1 hd]
    · exact fun _ h => nomatch h
    · intro r hr
      exact ⟨r, List.mem_reverse.1 hr, [], rfl, fun _ h => nomatch h⟩
  · rintro ⟨r, hr, es, hes, hall⟩
    obtain ⟨hstart, hclosed⟩ := @walk_closed w enter [] roots.reverse
      fun _ h => nomatch h
    have hroot : r ∈ w.reach enter roots := hstart r (.inr (List.mem_reverse.2 hr))
    clear hr
    induction es generalizing r with
    | nil => exact (show r = v from hes) ▸ hroot
    | cons e es ih =>
      obtain ⟨he, rfl, hes⟩ := hes
      rw [List.forall_mem_cons] at hall
      apply ih e.target hes hall.2
      exact hclosed e.source hroot hall.1 e.target (mem_successors.2 ⟨e, he, rfl, rfl⟩)

theorem mem_reachable {a v : Nat} : v ∈ w.reachable a ↔ w.Reaches a v := by
  simp [reachable, mem_reach, Reaches]

theorem mem_select {roots : List Nat} {test skip : NodeKey → Bool} {v : Nat} :
    v ∈ w.select roots test skip ↔ v ∉ roots ∧ w.holds test v = true ∧
      ∃ r ∈ roots, ∃ es, w.IsRoute r es v ∧
        ∀ e ∈ es, e.source ∈ roots ∨ w.holds skip e.source = false := by
  simp only [select, List.mem_filter, mem_nodes, Bool.and_eq_true, List.contains_iff_mem,
    Bool.not_eq_true', mem_reach, Bool.or_eq_true]
  constructor
  · rintro ⟨-, ⟨hreach, hroot⟩, htest⟩
    exact ⟨by simpa using hroot, htest, hreach⟩
  · rintro ⟨hroot, htest, hreach⟩
    exact ⟨lt_size_of_holds htest, ⟨hreach, by simpa using hroot⟩, htest⟩

end

end BuildGraph.Wiring
