import Switchboard.Proofs.Network.Rest
import Switchboard.Proofs.Term.Bits

/-!
# Terms in a network

Where the leaves of a subscription include those of a term's stream, the term
is fed there as it should be: with the value that its signal had in the
beginning and with what the signal has sent out since, and with its own value
first if there was none.
-/
namespace Switchboard

open Event Network

namespace Stream

variable {ν : Type}

theorem mem_window {start length leaf : Nat} {incoming : Option ν} {feeds : List (Nat × Option ν)}
    (member : (start + leaf, incoming) ∈ feeds) (small : leaf < length) :
    (leaf, incoming) ∈ window start length feeds :=
  List.mem_filterMap.mpr ⟨_, member, by simp [small]⟩

/-- A window of two leaves starts with what has come in first at either of them. -/
theorem head?_window_two {start : Nat} {feeds : List (Nat × Option ν)} {leaf : Nat}
    {incoming : Option ν}
    (first : (feeds.filter fun feed => feed.1 = start ∨ feed.1 = start + 1).head? =
      some (start + leaf, incoming)) :
    (window start 2 feeds).head? = some (leaf, incoming) := by
  have mapped : window start 2 feeds =
      (feeds.filter fun feed => feed.1 = start ∨ feed.1 = start + 1).map
        fun feed => (feed.1 - start, feed.2) := by
    clear first
    induction feeds with
    | nil => rfl
    | cons feed feeds ih =>
      rw [← List.singleton_append, window_append, window_single, ih, List.filter_append,
        List.map_append]
      by_cases inside : feed.1 = start ∨ feed.1 = start + 1
      · have bounds : start ≤ feed.1 ∧ feed.1 < start + 2 := by omega
        simp [inside, bounds]
      · have bounds : ¬(start ≤ feed.1 ∧ feed.1 < start + 2) := by omega
        simp [inside, bounds]
  rw [mapped, List.head?_map, first]
  simp

end Stream

namespace Term

theorem path_of_path? {term : Term} {path : String} (h : term.path? = some path) :
    term.path = path := by
  rw [Term.path, h, Option.getD_some]

/-- A term with a path has its signal at its first leaf. -/
theorem leaves_signal (bus : Bus) {term : Term} (signal : term.path? ≠ none) :
    (term.stream bus).leaves = [.subject (bus.line term.path)] ∨
      (term.stream bus).leaves = [.subject (bus.line term.path), .own] := by
  obtain ⟨path, here⟩ := Option.ne_none_iff_exists'.mp signal
  rw [leaves_stream, here, path_of_path? here]
  cases term with
  | off => exact absurd rfl signal
  | on => exact absurd rfl signal
  | switch => exact .inr rfl
  | notification => exact .inr rfl
  | signal path test => cases test <;> simp

/-- A term without a path has an own value and nothing else. -/
theorem leaves_constant (bus : Bus) {term : Term} (constant : term.path? = none) :
    (term.stream bus).leaves = [.own] := by
  cases term with
  | off => rfl
  | on => rfl
  | switch bank => cases bank <;> exact nomatch constant
  | notification => exact nomatch constant
  | signal => exact nomatch constant

theorem fed_of_sound {σ : Type} {events : List (Event Line Json)}
    {network : Network Line Json Entry σ} {stack : List (Frame Line Json Entry σ)}
    (sound : Sound events network stack) (bus : Bus) {term : Term} {n start : Nat}
    (leaves : ∀ leaf < (term.stream bus).leaves.length,
      network.leafAt n (start + leaf) = (term.stream bus).leaves[leaf]?)
    (reached : ∀ leaf, ¬network.Untouched stack n leaf) {current : Option Json} {later : List Json}
    (attached : term.path? ≠ none → currents n start events = [current])
    (values : term.path? ≠ none → received n start events = current.toList ++ later) :
    term.Fed bus current later
      (Stream.window start (term.stream bus).leaves.length (feeds n events)) := by
  refine ⟨?_, ?_, ?_⟩
  · intro constant
    have own := leaves_constant bus constant
    rw [own] at leaves ⊢
    have here := leaves 0 (by simp)
    exact Stream.mem_window ((sound.opened.supplied n start here).resolve_left (reached start))
      (by simp)
  · intro signal
    have some_leaf : 0 < (term.stream bus).leaves.length := by
      rcases leaves_signal bus signal with h | h <;> simp [h]
    rw [Stream.valuesAt_window start _ _ some_leaf, ← received_eq_feeds]
    exact values signal
  · intro beside
    have signal : term.path? ≠ none := by
      intro constant
      rw [leaves_constant bus constant] at beside
      exact nomatch beside
    have both : (term.stream bus).leaves = [.subject (bus.line term.path), .own] := by
      rcases leaves_signal bus signal with h | h
      · rw [h] at beside
        exact nomatch beside
      · exact h
    rw [both] at leaves ⊢
    have here := leaves 0 (by simp)
    have next := leaves 1 (by simp)
    have first := sound.opened.first n start _ current here next (attached signal)
    cases current with
    | some value => exact Stream.head?_window_two first
    | none =>
      rcases first with first | ⟨_, more, go, rest, top⟩
      · exact Stream.head?_window_two first
      · subst top
        exact absurd (.inr ⟨start + 1, .own :: more, go, List.mem_cons_self, Nat.le_refl _⟩)
          (reached (start + 1))

end Term

end Switchboard
