import BuildGraph.Proofs.Drafting
import BuildGraph.Proofs.Links
import Mathlib.Data.List.Dedup

/-!
# What a draft holds

After any calls a draft has one node for each key that was mentioned, found under every
spelling, and a node keeps its number. An edge leads from one key to another where a call
declared one, and there is only one, however often and in which order it was declared. A
table that is kept beside the nodes, with a new entry for each new key, finds the same
nodes.
-/

namespace BuildGraph

/-! ## The table of nodes -/

/-- Nodes by key, oldest first. -/
abbrev NodeTable := List (NodeKey × Nat)

namespace NodeTable

def node? (table : NodeTable) (key : NodeKey) : Option Nat :=
  (table.find? fun entry => same key entry.1).map (·.2)

def add (table : NodeTable) (key : NodeKey) : NodeTable :=
  if (table.node? key).isSome then table else table ++ [(key, table.length)]

def ofKeys (keys : List NodeKey) : NodeTable :=
  keys.foldl add []

end NodeTable

namespace Wiring

def table (w : Wiring) : NodeTable :=
  w.keys.zipIdx

theorem node?_table (w : Wiring) (key : NodeKey) : w.table.node? key = w.node? key :=
  List.findIdx?_eq_fst_find?_zipIdx.symm

theorem table_intern (w : Wiring) (key : NodeKey) : (w.intern key).2.table = w.table.add key := by
  rw [NodeTable.add, node?_table, intern]
  cases w.node? key with
  | some n => rfl
  | none => simp [table, List.zipIdx_append]

theorem table_internAll : ∀ (keys : List NodeKey) (w : Wiring),
    (keys.foldl (fun w key => (w.intern key).2) w).table = keys.foldl NodeTable.add w.table
  | [], _ => rfl
  | key :: keys, w => by
    rw [List.foldl_cons, List.foldl_cons, table_internAll keys, table_intern]

theorem table_connect (w : Wiring) (a b : NodeKey) (c : Option Condition) :
    (w.connect a b c).table = (w.table.add a).add b := by
  rw [connect_eq, table, keys_link, ← table, withEnds, table_intern, table_intern]

/-! ## Nodes that stay -/

def Keeps (w w' : Wiring) : Prop :=
  ∀ n k, w.sortKey? n = some k → w'.sortKey? n = some k

theorem keeps_internAll : ∀ (keys : List NodeKey) (w : Wiring),
    w.Keeps (keys.foldl (fun w key => (w.intern key).2) w)
  | [], _, _, _, h => h
  | key :: keys, w, n, k, h => keeps_internAll keys _ n k ((w.intern_spec key).grows n k h)

theorem keeps_connect (w : Wiring) (a b : NodeKey) (c : Option Condition) :
    w.Keeps (w.connect a b c) := by
  intro n k h
  rw [connect_eq, sortKey?_link]
  exact ((w.intern a).2.intern_spec b).grows n k ((w.intern_spec a).grows n k h)

end Wiring

namespace Draft

section
variable (d : Draft)

theorem table_call (c : DraftCall) :
    (d.call c).wiring.table = c.mentioned.foldl NodeTable.add d.wiring.table := by
  cases c with
  | limit n => rfl
  | register p =>
    rw [call, wiring_register, Wiring.table_internAll]
    rfl
  | intern key => exact d.wiring.table_intern key
  | declare a b c => exact d.wiring.table_connect a b c

theorem keeps_call (c : DraftCall) : d.wiring.Keeps (d.call c).wiring := by
  cases c with
  | limit n => exact fun _ _ h => h
  | register p =>
    rw [call, wiring_register]
    exact Wiring.keeps_internAll _ _
  | intern key => exact (d.wiring.intern_spec key).grows
  | declare a b c => exact d.wiring.keeps_connect a b c

end

theorem table_foldl : ∀ (calls : List DraftCall) (d : Draft), (calls.foldl call d).wiring.table =
    (calls.flatMap DraftCall.mentioned).foldl NodeTable.add d.wiring.table
  | [], _ => rfl
  | c :: calls, d => by
    rw [List.foldl_cons, table_foldl calls, table_call, List.flatMap_cons, List.foldl_append]

theorem keeps_foldl : ∀ (calls : List DraftCall) (d : Draft),
    d.wiring.Keeps (calls.foldl call d).wiring
  | [], _ => fun _ _ h => h
  | c :: calls, d => fun n k h => keeps_foldl calls _ n k (keeps_call d c n k h)

/-! ## Declared edges -/

def Declares (calls : List DraftCall) (a b : NodeKey) (c : Option Condition) : Prop :=
  ∃ source target, .declare source target c ∈ calls ∧
    sortKey source = sortKey a ∧ sortKey target = sortKey b

def declaredLinks (calls : List DraftCall) : List Link :=
  (calls.filterMap DraftCall.edge?).map fun (source, target, c) => ⟨source, target, c⟩

section
variable {workspace : Workspace} {calls : List DraftCall} {a b : NodeKey} {c : Option Condition}

theorem mem_declaredLinks {l : Link} :
    l ∈ declaredLinks calls ↔ .declare l.source l.target l.condition ∈ calls := by
  simp only [declaredLinks, List.mem_map, List.mem_filterMap]
  constructor
  · rintro ⟨_, ⟨call, hcall, hedge⟩, rfl⟩
    cases call with
    | declare source target c =>
      cases hedge
      exact hcall
    | _ => cases hedge
  · intro h
    exact ⟨(l.source, l.target, l.condition), ⟨_, h, rfl⟩, rfl⟩

theorem declares_iff : Declares calls a b c ↔
    ∃ l ∈ declaredLinks calls, l.Joins a b ∧ l.condition = c := by
  constructor
  · rintro ⟨source, target, h, hsource, htarget⟩
    exact ⟨⟨source, target, c⟩, mem_declaredLinks.2 h, ⟨hsource, htarget⟩, rfl⟩
  · rintro ⟨l, hl, ⟨hsource, htarget⟩, rfl⟩
    exact ⟨l.source, l.target, mem_declaredLinks.1 hl, hsource, htarget⟩

theorem standsFor_declaredLinks :
    (ofCalls workspace calls).wiring.StandsFor (declaredLinks calls) := by
  intro x k l
  rw [depends_ofCalls]
  constructor
  · rintro ⟨a, b, c, h, hk, hl, hx⟩
    exact ⟨⟨a, b, c⟩, mem_declaredLinks.2 h, hk, hl, hx⟩
  · rintro ⟨d, hd, hk, hl, hx⟩
    exact ⟨d.source, d.target, d.condition, mem_declaredLinks.1 hd, hk, hl, hx⟩

end

/-! ## All that a draft holds -/

structure Holds (d : Draft) (calls : List DraftCall) : Prop where
  nodes : (d.wiring.keys.map sortKey).Perm
    ((calls.flatMap DraftCall.mentioned).map sortKey).dedup
  found : ∀ key ∈ calls.flatMap DraftCall.mentioned, ∃ n, d.wiring.node? key = some n ∧
    ∀ m, d.wiring.holds (same key) m = true ↔ m = n
  table : ∀ key, (NodeTable.ofKeys (calls.flatMap DraftCall.mentioned)).node? key =
    d.wiring.node? key
  edges : ∀ e ∈ d.wiring.edges, ∃ l ∈ d.wiring.links, d.wiring.link? e = some l
  placed : ∀ l ∈ d.wiring.links, ∃ n m, d.wiring.node? l.source = some n ∧
    d.wiring.node? l.target = some m ∧ d.wiring.edge? n m = some ⟨n, m, l.condition⟩
  joined : ∀ a b, (∃ l ∈ d.wiring.links, l.Joins a b) ↔ ∃ c, Declares calls a b c
  single : d.wiring.links.Pairwise fun l m => ¬ l.Joins m.source m.target
  unconditional : ∀ l ∈ d.wiring.links, l.condition = none ↔ Declares calls l.source l.target none
  conditional : ∀ l ∈ d.wiring.links, ∀ c, l.condition = some c → ∀ p : Platform,
    c.contains p = true ↔
      ∃ c', Declares calls l.source l.target (some c') ∧ c'.contains p = true

section
variable {workspace : Workspace} {calls : List DraftCall}

theorem mem_keys_iff {k : SortKey} : k ∈ (ofCalls workspace calls).wiring.keys.map sortKey ↔
    k ∈ (calls.flatMap DraftCall.mentioned).map sortKey := by
  rw [mem_keys_ofCalls, List.map_flatMap, List.mem_flatMap]

theorem exists_node_of_mentioned {key : NodeKey}
    (h : key ∈ calls.flatMap DraftCall.mentioned) :
    ∃ n, (ofCalls workspace calls).wiring.node? key = some n ∧
      ∀ m, (ofCalls workspace calls).wiring.holds (same key) m = true ↔ m = n := by
  have hw := wellFormed_ofCalls workspace calls
  have hkey : sortKey key ∈ (ofCalls workspace calls).wiring.keys.map sortKey :=
    mem_keys_iff.2 (List.mem_map_of_mem h)
  obtain ⟨n, hn⟩ := Wiring.mem_sortKeys.1 hkey
  have hsame (m : Nat) : (ofCalls workspace calls).wiring.holds (same key) m = true ↔
      (ofCalls workspace calls).wiring.sortKey? m = some (sortKey key) := by
    rw [Wiring.holds_iff, Wiring.sortKey?_eq_some]
    simp only [same_iff, eq_comm (a := sortKey key)]
  refine ⟨n, hw.node?_eq_some.2 hn, fun m => ?_⟩
  rw [hsame]
  exact ⟨fun hm => hw.node_eq hm hn, fun hm => hm ▸ hn⟩

theorem exists_edge_of_link {l : Link} (hl : l ∈ (ofCalls workspace calls).wiring.links) :
    ∃ n m, (ofCalls workspace calls).wiring.node? l.source = some n ∧
      (ofCalls workspace calls).wiring.node? l.target = some m ∧
      (ofCalls workspace calls).wiring.edge? n m = some ⟨n, m, l.condition⟩ := by
  have hw := wellFormed_ofCalls workspace calls
  obtain ⟨e, he, hlink⟩ := List.mem_filterMap.1 hl
  obtain ⟨hsource, htarget, hcondition⟩ := Wiring.link?_eq_some.1 hlink
  refine ⟨e.source, e.target, hw.node?_eq_some.2 ?_, hw.node?_eq_some.2 ?_, ?_⟩
  · exact Wiring.sortKey?_eq_some.2 ⟨_, hsource, rfl⟩
  · exact Wiring.sortKey?_eq_some.2 ⟨_, htarget, rfl⟩
  · rw [hw.edge? he, ← hcondition]

theorem holds_ofCalls (workspace : Workspace) (calls : List DraftCall) :
    (ofCalls workspace calls).Holds calls := by
  have hw := wellFormed_ofCalls workspace calls
  have hlinks : (ofCalls workspace calls).wiring.StandsFor (declaredLinks calls) :=
    standsFor_declaredLinks
  refine ⟨?_, fun key => exists_node_of_mentioned, fun key => ?_, fun e he => hw.exists_link he,
    fun l hl => exists_edge_of_link hl, fun a b => ?_, ?_, fun l hl => ?_, fun l hl c hc p => ?_⟩
  · refine (List.perm_ext_iff_of_nodup hw.distinct (List.nodup_dedup _)).2 fun k => ?_
    rw [List.mem_dedup, mem_keys_iff]
  · have htable := table_foldl calls { workspace }
    rw [← Wiring.node?_table, ofCalls, htable]
    rfl
  · rw [hlinks.joins_iff]
    simp only [declares_iff]
    constructor
    · rintro ⟨l, hl, hj⟩
      exact ⟨l.condition, l, hl, hj, rfl⟩
    · rintro ⟨_, l, hl, hj, -⟩
      exact ⟨l, hl, hj⟩
  · exact hw.links_nodup.imp_of_mem fun hl hm hne hj => hne (hw.link_unique hl hm hj)
  · rw [hlinks.condition_eq_none_iff hw hl ⟨rfl, rfl⟩, declares_iff]
  · rw [hlinks.contains_iff hw hl ⟨rfl, rfl⟩ hc]
    simp only [declares_iff]
    constructor
    · rintro ⟨m, hm, hj, c', hc', hp⟩
      exact ⟨c', ⟨m, hm, hj, hc'⟩, hp⟩
    · rintro ⟨c', ⟨m, hm, hj, hc'⟩, hp⟩
      exact ⟨m, hm, hj, c', hc', hp⟩

theorem node?_append (more : List DraftCall) {key : NodeKey} {n : Nat}
    (h : (ofCalls workspace calls).wiring.node? key = some n) :
    (ofCalls workspace (calls ++ more)).wiring.node? key = some n := by
  have hkeeps := keeps_foldl more (ofCalls workspace calls) n (sortKey key)
    (Wiring.sortKey?_of_node? h)
  rw [ofCalls, ← List.foldl_append] at hkeeps
  exact (wellFormed_ofCalls workspace (calls ++ more)).node?_eq_some.2 hkeeps

end

/-- Whatever the calls and their order, the draft has one node for each key that they mention
and one edge for each pair that they declare, under the union of its conditions; and later
calls leave every key at its node. -/
theorem made_by_calls (workspace : Workspace) (calls : List DraftCall) :
    (ofCalls workspace calls).Holds calls ∧ ∀ more key n,
      (ofCalls workspace calls).wiring.node? key = some n →
        (ofCalls workspace (calls ++ more)).wiring.node? key = some n :=
  ⟨holds_ofCalls workspace calls, fun more _ _ h => node?_append more h⟩

/-! ## An edge that is declared three times -/

def respelledCalls : List DraftCall :=
  [.declare (.ofTarget ⟨"/w"⟩ "App") (.ofTarget ⟨"/w/"⟩ "Kit") (some (.only .ios)),
    .register ⟨⟨"/w/"⟩, "W", .localProject, [{ name := "Kit", product := .framework },
      { name := "App", product := .app }]⟩,
    .declare (.ofTarget ⟨"//w"⟩ "App") (.ofTarget ⟨"/w"⟩ "Kit") (some (.only .macos))]

theorem made_by_respelledCalls :
    let workspace : Workspace := ⟨⟨"/w"⟩, "W", []⟩
    let last : DraftCall := .declare (.ofTarget ⟨"/w"⟩ "App") (.ofTarget ⟨"/w"⟩ "Kit") none
    (ofCalls workspace respelledCalls).Holds respelledCalls ∧
      (ofCalls workspace respelledCalls).wiring.node? (.ofTarget ⟨"/w"⟩ "Kit") = some 1 ∧
      (ofCalls workspace (respelledCalls ++ [last])).wiring.node? (.ofTarget ⟨"/w"⟩ "Kit") = some 1 ∧
      (ofCalls workspace respelledCalls).wiring.edges =
        [⟨0, 1, Condition.when? [.ios, .macos]⟩] ∧
      (ofCalls workspace (respelledCalls ++ [last])).wiring.edges = [⟨0, 1, none⟩] := by
  intro workspace last
  have hkit : (ofCalls workspace respelledCalls).wiring.node? (.ofTarget ⟨"/w"⟩ "Kit") = some 1 := by
    decide +kernel
  obtain ⟨hholds, hstay⟩ := made_by_calls workspace respelledCalls
  exact ⟨hholds, hkit, hstay [last] _ 1 hkit, by decide +kernel, by decide +kernel⟩

end Draft

end BuildGraph
