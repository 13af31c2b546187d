import StringBricks.Proofs.BrickSeq.Convergence
import StringBricks.Proofs.Env.Lattice
import StringBricks.Proofs.Solver
import Mathlib.Data.Set.Finite.Lattice

/-!
# Ascents on environments come to rest

Each variable goes up in finitely many steps of a run of widenings, and only the variables with an
entry at the start can go up at all. So a run comes to a step that no variable goes up in
(`Env.exists_le_of_run`), also where the variables climb at different times. An ascent of the solver
is such a run from the delay on, and none goes on for ever (`Env.acc_climbs`).
-/

set_option autoImplicit false

namespace StringBricks

namespace Env

variable {t : Thresholds}

/-! ## Runs of widenings -/

section Runs

variable {x z : Nat → Env}

/-- A run of widenings widens each variable. -/
theorem combines_of_run (hrun : ∀ n, (x n).widen t (z n) = .ok (x (n + 1)))
    (hz : ∀ n, (z n).IsProper) (h0 : (x 0).isUnreachable = false) (n : Nat) :
    (x n).isUnreachable = false ∧ Combines (BrickSeq.widened t) (x n) (z n) (x (n + 1)) := by
  have hn : (x n).isUnreachable = false := by
    induction n with
    | zero => exact h0
    | succ n ih =>
      apply IsProper.reachable
      exact (combines_of_widen (hrun n) ih (hz n)).isProper
  exact ⟨hn, combines_of_widen (hrun n) hn (hz n)⟩

/-- A variable without an entry at the start stays without one. -/
theorem get_eq_top_of_run (hrun : ∀ n, (x n).widen t (z n) = .ok (x (n + 1)))
    (hz : ∀ n, (z n).IsProper) (h0 : (x 0).isUnreachable = false) {k : String}
    (hk : k ∉ (x 0).names) (n : Nat) : (x n).get k = .top := by
  induction n with
  | zero => exact get_eq_top h0 hk
  | succ n ih =>
    rw [(combines_of_run hrun hz h0 n).2.get_eq k, ih]
    exact BrickSeq.widened_top_left t _

/-- A run of widenings comes to a step that does not go up. -/
theorem exists_le_of_run (hrun : ∀ n, (x n).widen t (z n) = .ok (x (n + 1)))
    (hz : ∀ n, (z n).IsProper) (h0 : (x 0).isUnreachable = false) : ∃ n, (z n).le (x n) = true := by
  have hvariable : ∀ k, (BrickSeq.climbs (fun n => (x n).get k) fun n => (z n).get k).Finite := by
    intro k
    apply BrickSeq.finite_climbs (t := t)
    intro n
    rw [(combines_of_run hrun hz h0 n).2.get_eq k]
    exact BrickSeq.widen_eq_ok t _ _
  -- only the names that have an entry at the start count, and these are finitely many
  have hall : (⋃ k ∈ {k | k ∈ (x 0).names.toList},
      BrickSeq.climbs (fun n => (x n).get k) fun n => (z n).get k).Finite :=
    (List.finite_toSet (x 0).names.toList).biUnion fun k _ => hvariable k
  obtain ⟨n, hn⟩ := hall.exists_notMem
  refine ⟨n, (le_iff (hz n).reachable).2 ⟨(combines_of_run hrun hz h0 n).1, ?_⟩⟩
  intro k
  by_cases hk : k ∈ (x 0).names
  · rw [← Bool.not_eq_false]
    intro hup
    exact hn (Set.mem_biUnion hk hup)
  · rw [get_eq_top_of_run hrun hz h0 hk n]
    exact BrickSeq.le_top _

end Runs

/-! ## Ascents of the solver -/

section Ascents

open Solver

variable {s : Solver} {init x x' : Env} {f : Env → Except Fault Env}

/-- A join with the start that is not below a value above the start gives every variable some
string, and is itself above the start. -/
theorem isProper_join (hinit : init.isUnreachable = false) (hx : init.le x = true) {y : Env}
    (hup : (init.join y).le x = false) :
    (init.join y).IsProper ∧ init.le (init.join y) = true := by
  obtain ⟨-, hjoin⟩ | ⟨hjoin, -⟩ | hjoin := join_cases hinit y
  · rw [hjoin, hx] at hup
    cases hup
  · rw [hjoin, unreachable_le] at hup
    cases hup
  · exact ⟨hjoin.isProper, hjoin.le_left BrickSeq.le_join_left⟩

/-- One step of an ascent stays above the start, and is a widening once the delay is over. -/
theorem climbs_step {steps : Nat} (h : Climbs s (domain t) init f steps x x')
    (hinit : init.isUnreachable = false) (hx : init.le x = true) :
    init.le x' = true ∧ ∃ z : Env, z.IsProper ∧ z.le x = false ∧
      (s.wideningDelay ≤ steps + 1 → x.widen t z = .ok x') := by
  obtain ⟨y, -, hup, hnext⟩ := h
  have hproper := isProper_join hinit hx hup
  unfold advance at hnext
  split at hnext
  · have hcombines :=
      combines_of_widen hnext (reachable_of_le hx hinit) hproper.1
    refine ⟨?_, init.join y, hproper.1, hup, fun _ => hnext⟩
    apply le_trans hx
    exact hcombines.le_left (BrickSeq.le_widened_left t)
  · next hdelay =>
    cases hnext
    exact ⟨hproper.2, init.join y, hproper.1, hup, fun h => absurd h hdelay⟩

/-- No ascent goes on for ever. -/
theorem acc_climbs (s : Solver) (t : Thresholds) (f : Env → Except Fault Env)
    (hinit : init.isUnreachable = false) :
    Acc (fun q p : Nat × Env => q.1 = p.1 + 1 ∧ Climbs s (domain t) init f p.1 p.2 q.2)
      (0, init) := by
  by_contra hacc
  obtain ⟨c, h0, hc⟩ := not_acc_iff_exists_descending_chain.1 hacc
  have hsteps : ∀ n, (c n).1 = n := by
    intro n
    induction n with
    | zero => rw [h0]
    | succ n ih => rw [(hc n).1, ih]
  have hup : ∀ n, init.le (c n).2 = true := by
    intro n
    induction n with
    | zero =>
      rw [h0]
      exact le_refl init
    | succ n ih =>
      have hstep := climbs_step (hc n).2 hinit ih
      exact hstep.1
  choose z hz hzup hwiden using fun n => (climbs_step (hc n).2 hinit (hup n)).2
  -- the part of the ascent after the delay is a run of widenings
  have hrun : ∀ n, (c (n + s.wideningDelay)).2.widen t (z (n + s.wideningDelay)) =
      .ok (c (n + 1 + s.wideningDelay)).2 := by
    intro n
    have hdelay : s.wideningDelay ≤ (c (n + s.wideningDelay)).1 + 1 := by
      rw [hsteps]
      omega
    rw [hwiden _ hdelay, Nat.add_right_comm n]
  have hstart := reachable_of_le (hup (0 + s.wideningDelay)) hinit
  obtain ⟨n, hn⟩ := exists_le_of_run (x := fun n => (c (n + s.wideningDelay)).2)
    (z := fun n => z (n + s.wideningDelay)) hrun (fun n => hz _) hstart
  exact absurd ((hzup _).symm.trans hn) Bool.false_ne_true

end Ascents

end Env

end StringBricks
