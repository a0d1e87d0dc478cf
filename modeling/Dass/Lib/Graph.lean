/-
# `Dass.Lib.Graph` — finite directed graphs, as lists of edges

`Below edges a b` says that a path of at least one edge leads from `a` to `b`, and a
graph is acyclic if nothing is below itself.  Four things are proved of it.  A
cycle that an edited graph has and the old one had not runs through an end of
every edit (`Acyclic.of_vertex`), so where all edits touch one vertex it is
enough to look there.  What is proved of a vertex from the vertices right above it
holds of all (`Acyclic.wellFounded`).  What vertices hand on over their edges ends, if
the graph is acyclic, after as many rounds as there are edges (`Acyclic.le_spread`).  And
what is below a vertex can be computed the way a recursive query does it: one hop, then
the hops from whatever the last round found and no round before (`reachable`).  However
long the query is let run, a round that finds nothing new comes after as many rounds as
there are edges (`exists_after_nil`), and what has been found by then is what is below
the vertex (`mem_after`).
-/
import Mathlib.Logic.Relation
import Mathlib.Data.List.Dedup
import Mathlib.Data.List.Perm.Subperm
import Mathlib.Data.Finset.Card
import Mathlib.Algebra.Order.BigOperators.Group.List
import Mathlib.Algebra.Order.Group.Nat
import Mathlib.Algebra.GroupWithZero.Nat

namespace EdgeList

open Relation

variable {κ : Type*}

/-- There is an edge. -/
def Edge (edges : List (κ × κ)) (a b : κ) : Prop := (a, b) ∈ edges

/-- A path of at least one edge leads from `a` to `b`. -/
def Below (edges : List (κ × κ)) : κ → κ → Prop := TransGen (Edge edges)

/-- No vertex is below itself. -/
def Acyclic (edges : List (κ × κ)) : Prop := ∀ a, ¬ Below edges a a

variable {edges edges' : List (κ × κ)} {a b j : κ}

theorem acyclic_nil : Acyclic ([] : List (κ × κ)) := by
  intro a h
  obtain ⟨b, hedge, _⟩ := TransGen.head'_iff.mp h
  cases hedge

theorem Below.mono (hsub : ∀ e ∈ edges, e ∈ edges') (h : Below edges a b) : Below edges' a b :=
  TransGen.mono (fun a b => hsub (a, b)) a b h

theorem Acyclic.mono (hsub : ∀ e ∈ edges, e ∈ edges') (h : Acyclic edges') : Acyclic edges :=
  fun a hcycle => h a (hcycle.mono hsub)

/-- A path of the edited graph is one of the old graph, or passes through the vertex the
edits touch. -/
theorem Below.through (htouch : ∀ e ∈ edges', e ∈ edges ∨ e.1 = j ∨ e.2 = j)
    (h : Below edges' a b) :
    Below edges a b ∨ ReflTransGen (Edge edges') a j ∧ ReflTransGen (Edge edges') j b := by
  induction h with
  | single hedge =>
      rcases htouch _ hedge with hold | rfl | rfl
      · exact .inl (.single hold)
      · exact .inr ⟨.refl, .single hedge⟩
      · exact .inr ⟨.single hedge, .refl⟩
  | tail hpath hedge ih =>
      rcases ih with hold | ⟨hto, hfrom⟩
      · rcases htouch _ hedge with hstep | rfl | rfl
        · exact .inl (hold.tail hstep)
        · exact .inr ⟨hpath.to_reflTransGen, .single hedge⟩
        · exact .inr ⟨hpath.to_reflTransGen.tail hedge, .refl⟩
      · exact .inr ⟨hto, hfrom.tail hedge⟩

/-- Edits that all touch one vertex close a cycle there or nowhere. -/
theorem Acyclic.of_vertex (h : Acyclic edges)
    (htouch : ∀ e ∈ edges', e ∈ edges ∨ e.1 = j ∨ e.2 = j) (hj : ¬ Below edges' j j) :
    Acyclic edges' := by
  intro a hcycle
  rcases hcycle.through htouch with hold | ⟨hto, hfrom⟩
  · exact h a hold
  · have hcycle : TransGen (Edge edges') a a := hcycle
    exact hj ((TransGen.trans_right hfrom hcycle).trans_left hto)

/-! ## Replacing the neighbours of a vertex -/

/-- Some path of at least one edge leads back to its start. -/
def HasCycle (G : κ → κ → Prop) : Prop := ∃ a, TransGen G a a

/-- The edges into `j` come from `sources`; the others stay. -/
def replace_into (G : κ → κ → Prop) (j : κ) (sources : κ → Prop) (a b : κ) : Prop :=
  (b = j ∧ sources a) ∨ (b ≠ j ∧ G a b)

/-- The edges out of `j` lead to `targets`; the others stay. -/
def replace_out_of (G : κ → κ → Prop) (j : κ) (targets : κ → Prop) (a b : κ) : Prop :=
  (a = j ∧ targets b) ∨ (a ≠ j ∧ G a b)

theorem hasCycle_iff : HasCycle (Edge edges) ↔ ¬ Acyclic edges := by
  unfold HasCycle Acyclic Below
  rw [not_forall_not]

/-! ## Induction along the edges -/

/-- Along the edges of an acyclic graph a count grows that the number of edges bounds. -/
theorem Acyclic.exists_rank (h : Acyclic edges) : ∃ rank : κ → Nat,
    (∀ a b, Edge edges a b → rank a < rank b) ∧ ∀ a, rank a ≤ edges.length := by
  classical
  -- the vertices above one, counted, grow along every edge
  let above (b : κ) : Finset κ := (edges.map Prod.fst).toFinset.filter fun a => Below edges a b
  refine ⟨fun b => (above b).card, fun a b hedge => ?_, fun b => ?_⟩
  · refine Finset.card_lt_card (Finset.ssubset_iff_of_subset ?_ |>.mpr ⟨a, ?_, ?_⟩)
    · intro c hc
      obtain ⟨hmem, hbelow⟩ := Finset.mem_filter.mp hc
      exact Finset.mem_filter.mpr ⟨hmem, hbelow.tail hedge⟩
    · refine Finset.mem_filter.mpr ⟨List.mem_toFinset.mpr ?_, .single hedge⟩
      exact List.mem_map.mpr ⟨(a, b), hedge, rfl⟩
    · exact fun ha => h a (Finset.mem_filter.mp ha).2
  · calc (above b).card ≤ (edges.map Prod.fst).toFinset.card := Finset.card_filter_le _ _
      _ ≤ (edges.map Prod.fst).length := List.toFinset_card_le _
      _ = edges.length := List.length_map _

/-- In a finite acyclic graph every vertex is reached from those without edges into them. -/
theorem Acyclic.wellFounded (h : Acyclic edges) : WellFounded (Edge edges) := by
  obtain ⟨rank, hlt, _⟩ := h.exists_rank
  exact Subrelation.wf (hlt _ _) (measure rank).wf

/-! ## What the edges hand on -/

section Spread

variable [DecidableEq κ]

/-- What a vertex is handed over the edges into it. -/
def handed (edges : List (κ × κ)) (held : κ → Nat) (a : κ) : Nat :=
  ((edges.filter (·.2 = a)).map fun e => held e.1).sum

/-- What a vertex holds after some rounds: its own share, and what it is handed of what the
vertices above it held a round before. -/
def spread (edges : List (κ × κ)) (share : κ → Nat) : Nat → κ → Nat
  | 0, a => share a
  | n + 1, a => share a + handed edges (spread edges share n) a

theorem handed_le {held held' : κ → Nat} (h : ∀ b, Edge edges b a → held b ≤ held' b) :
    handed edges held a ≤ handed edges held' a := by
  refine List.sum_le_sum fun e he => h e.1 ?_
  obtain ⟨hmem, ha⟩ := List.mem_filter.mp he
  obtain rfl : e.2 = a := of_decide_eq_true ha
  exact hmem

/-- **In an acyclic graph the rounds end.**  Whoever holds no more than a share and what the
edges hand on holds no more than is there after as many rounds as there are edges. -/
theorem Acyclic.le_spread (h : Acyclic edges) {share : κ → Nat} (held : κ → Nat)
    (hheld : ∀ a, held a ≤ share a + handed edges held a) (a : κ) :
    held a ≤ spread edges share edges.length a := by
  obtain ⟨rank, hlt, hle⟩ := h.exists_rank
  have hrounds : ∀ n a, rank a ≤ n → held a ≤ spread edges share n a := by
    intro n
    induction n with
    | zero =>
        intro a ha
        have hnone : handed edges held a ≤ handed edges (fun _ => 0) a :=
          handed_le fun b hedge => absurd (hlt b a hedge) (by omega)
        have hzero : handed edges (fun _ => 0) a = 0 := by simp [handed]
        have := hheld a
        unfold spread
        omega
    | succ n ih =>
        intro a ha
        refine (hheld a).trans (Nat.add_le_add_left (handed_le fun b hedge => ih b ?_) _)
        have := hlt b a hedge
        omega
  exact hrounds _ a (hle a)

end Spread

/-! ## Computing what is below a vertex -/

section Reachable

variable [DecidableEq κ]

/-- The vertices one edge below `a`, each once. -/
def first_hop (edges : List (κ × κ)) (a : κ) : List κ :=
  ((edges.filter (·.1 = a)).map Prod.snd).dedup

/-- What one edge leads to from the last round's vertices and has not been found before. -/
def deeper (edges : List (κ × κ)) (found work : List κ) : List κ :=
  ((edges.filter (·.1 ∈ work)).map Prod.snd).dedup.filter (· ∉ found)

/-- Round after round, until one finds nothing new. -/
def rounds (edges : List (κ × κ)) : Nat → List κ → List κ → List κ
  | 0, found, _ => found
  | n + 1, found, work =>
      let next := deeper edges found work
      if next = [] then found else rounds edges n (found ++ next) next

/-- Everything below `a`.  Each round but the last finds the end of some edge. -/
def reachable (edges : List (κ × κ)) (a : κ) : List κ :=
  rounds edges edges.length (first_hop edges a) (first_hop edges a)

theorem mem_first_hop : b ∈ first_hop edges a ↔ Edge edges a b := by
  simp [first_hop, Edge, List.mem_dedup]

theorem mem_deeper {found work : List κ} :
    b ∈ deeper edges found work ↔ (∃ c ∈ work, Edge edges c b) ∧ b ∉ found := by
  simp [deeper, Edge, List.mem_dedup, and_comm]

/-- What the rounds keep: the vertices found are below `a`, each is found once, and only
those of the last round may lead out of them. -/
structure Sound (edges : List (κ × κ)) (a : κ) (found work : List κ) : Prop where
  below : ∀ b ∈ found, Below edges a b
  nodup : found.Nodup
  first : ∀ b, Edge edges a b → b ∈ found
  last : ∀ b ∈ work, b ∈ found
  closed : ∀ b ∈ found, b ∉ work → ∀ c, Edge edges b c → c ∈ found

theorem sound_first_hop : Sound edges a (first_hop edges a) (first_hop edges a) where
  below _ hb := .single (mem_first_hop.mp hb)
  nodup := List.nodup_dedup _
  first _ := mem_first_hop.mpr
  last _ := id
  closed _ hb hnot := absurd hb hnot

theorem Sound.deeper {found work : List κ} (h : Sound edges a found work) :
    Sound edges a (found ++ deeper edges found work) (deeper edges found work) where
  below b hb := by
    rcases List.mem_append.mp hb with hb | hb
    · exact h.below b hb
    · obtain ⟨⟨c, hc, hedge⟩, _⟩ := mem_deeper.mp hb
      exact (h.below c (h.last c hc)).tail hedge
  nodup := by
    refine List.nodup_append.mpr ⟨h.nodup, (List.nodup_dedup _).filter _, ?_⟩
    rintro b hb c hc rfl
    exact (mem_deeper.mp hc).2 hb
  first b hb := List.mem_append_left _ (h.first b hb)
  last b hb := List.mem_append_right _ hb
  closed b hb hnot c hedge := by
    rcases List.mem_append.mp hb with hb | hb
    · by_cases hc : c ∈ found
      · exact List.mem_append_left _ hc
      · by_cases hwork : b ∈ work
        · exact List.mem_append_right _ (mem_deeper.mpr ⟨⟨b, hwork, hedge⟩, hc⟩)
        · exact absurd (h.closed b hb hwork c hedge) hc
    · exact absurd hb hnot

omit [DecidableEq κ] in
/-- A set that holds the first hop and everything one edge further holds all there is. -/
theorem below_mem {found : List κ} (hfirst : ∀ b, Edge edges a b → b ∈ found)
    (hclosed : ∀ b ∈ found, ∀ c, Edge edges b c → c ∈ found) (h : Below edges a b) :
    b ∈ found := by
  induction h with
  | single hedge => exact hfirst _ hedge
  | tail _ hedge ih => exact hclosed _ ih _ hedge

/-- The vertex at the end of a path is the end of an edge. -/
theorem Below.mem_ends (h : Below edges a b) : b ∈ (edges.map Prod.snd).dedup := by
  obtain ⟨c, _, hedge⟩ := TransGen.tail'_iff.mp h
  exact List.mem_dedup.mpr (List.mem_map.mpr ⟨(c, b), hedge, rfl⟩)

theorem mem_rounds {n : Nat} {found work : List κ} (h : Sound edges a found work)
    (hn : edges.length ≤ found.length + n) :
    b ∈ rounds edges n found work ↔ Below edges a b := by
  induction n generalizing found work with
  | zero =>
      refine ⟨h.below b, fun hb => ?_⟩
      -- as many were found as there are edges, so every end of an edge was
      have hsub : found.Subperm (edges.map Prod.snd).dedup :=
        h.nodup.subperm fun c hc => (h.below c hc).mem_ends
      have hlen : (edges.map Prod.snd).dedup.length ≤ found.length := by
        refine Nat.le_trans (List.dedup_sublist _).length_le ?_
        rw [List.length_map]
        exact hn
      exact (hsub.perm_of_length_le hlen).mem_iff.mpr hb.mem_ends
  | succ n ih =>
      rw [rounds]
      split
      · next hnil =>
          refine ⟨h.below b, below_mem h.first fun c hc d hedge => ?_⟩
          by_contra hd
          by_cases hwork : c ∈ work
          · have hmem := mem_deeper.mpr ⟨⟨c, hwork, hedge⟩, hd⟩
            rw [hnil] at hmem
            cases hmem
          · exact hd (h.closed c hc hwork d hedge)
      · next hne =>
          refine ih h.deeper ?_
          have hpos := List.length_pos_iff.mpr hne
          rw [List.length_append]
          omega

/-- **The query finds what is below the vertex**, no less and no more, cycles or not. -/
theorem mem_reachable : b ∈ reachable edges a ↔ Below edges a b :=
  mem_rounds sound_first_hop (Nat.le_add_left _ _)

/-- The query on its own: what it has found after some rounds, and what the last one found. -/
def after (edges : List (κ × κ)) (a : κ) : Nat → List κ × List κ
  | 0 => (first_hop edges a, first_hop edges a)
  | n + 1 =>
      let next := deeper edges (after edges a n).1 (after edges a n).2
      ((after edges a n).1 ++ next, next)

theorem sound_after (n : Nat) : Sound edges a (after edges a n).1 (after edges a n).2 := by
  induction n with
  | zero => exact sound_first_hop
  | succ n ih => exact ih.deeper

/-- **The query stops**: every round but the last finds the end of another edge. -/
theorem exists_after_nil (edges : List (κ × κ)) (a : κ) :
    ∃ n ≤ edges.length, (after edges a n).2 = [] := by
  have hgrows : ∀ n, (∃ k ≤ n, (after edges a k).2 = []) ∨ n < (after edges a n).1.length := by
    intro n
    induction n with
    | zero =>
        by_cases hnil : (after edges a 0).2 = []
        · exact .inl ⟨0, le_rfl, hnil⟩
        · exact .inr (List.length_pos_iff.mpr hnil)
    | succ n ih =>
        rcases ih with ⟨k, hk, hnil⟩ | hlt
        · exact .inl ⟨k, Nat.le_succ_of_le hk, hnil⟩
        · by_cases hnil : (after edges a (n + 1)).2 = []
          · exact .inl ⟨n + 1, le_rfl, hnil⟩
          · have hpos := List.length_pos_iff.mpr hnil
            refine .inr ?_
            simp only [after, List.length_append] at hpos ⊢
            omega
  refine (hgrows edges.length).resolve_right (Nat.not_lt.mpr ?_)
  -- the vertices found are ends of edges, each once
  have hsound : Sound edges a _ _ := sound_after edges.length
  have hsub : (after edges a edges.length).1.Subperm (edges.map Prod.snd).dedup :=
    hsound.nodup.subperm fun c hc => (hsound.below c hc).mem_ends
  calc (after edges a edges.length).1.length ≤ (edges.map Prod.snd).dedup.length := hsub.length_le
    _ ≤ (edges.map Prod.snd).length := (List.dedup_sublist _).length_le
    _ = edges.length := List.length_map _

/-- **Where it stops it has found what is below the vertex.** -/
theorem mem_after {n : Nat} (hnil : (after edges a n).2 = []) :
    b ∈ (after edges a n).1 ↔ Below edges a b := by
  have hsound : Sound edges a _ _ := sound_after n
  refine ⟨hsound.below b, below_mem hsound.first fun c hc => ?_⟩
  exact hsound.closed c hc (by rw [hnil]; exact List.not_mem_nil)

/-- Whether a graph is acyclic shows at the ends of its edges. -/
theorem acyclic_iff :
    Acyclic edges ↔ ∀ a ∈ (edges.map Prod.snd).dedup, a ∉ reachable edges a := by
  constructor
  · exact fun h a _ hmem => h a (mem_reachable.mp hmem)
  · exact fun h a hcycle => h a hcycle.mem_ends (mem_reachable.mpr hcycle)

instance : Decidable (Acyclic edges) := decidable_of_iff _ acyclic_iff.symm

end Reachable

end EdgeList
