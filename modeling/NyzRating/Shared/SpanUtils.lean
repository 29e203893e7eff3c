import Mathlib.Data.Prod.Lex
import Mathlib.Data.Set.Basic
import NyzRating.Lib.Ordered

/-!
# Overlapping matches

A match is a range of characters of a text. Of matches that overlap the longest is kept, and the first one among those of
one length.

Source: `shared/text/span_utils.py`.
-/

namespace NyzRating.Shared

open Ordered

/-- `(start, end, data_type, value)` -/
structure Match where
  start : Int
  stop : Int
  dataType : String
  value : String
  deriving DecidableEq, Repr

namespace Match

def length (m : Match) : Int := m.stop - m.start

/-- Longer matches come first, and the first one among those of one length. -/
def rank (m : Match) : Int ×ₗ Int := toLex (-m.length, m.start)

def overlaps (saved m : Match) : Bool := saved.start < m.stop && saved.stop > m.start

/-- The characters of a match. -/
def span (m : Match) : Set Int := { i | m.start ≤ i ∧ i < m.stop }

/-- They have a character in common. -/
def Meets (m n : Match) : Prop := (m.span ∩ n.span).Nonempty

end Match

def deduplicateMatchesLongerWins (ms : List Match) : List Match :=
  if ms = [] then []
  else
    let byLen := sortedBy Match.rank ms
    let kept := choose Match.overlaps byLen
    sortedBy Match.start kept

/-- What is left of a list of matches: in the order of their starts, no two with a character in common, and each of the
    other matches has one in common with a match that is left and at least as long. -/
structure Deduplicated (ms result : List Match) : Prop where
  sorted : result.Pairwise (·.start ≤ ·.start)
  apart : result.Pairwise fun m n => ¬m.Meets n
  split : ∃ dropped, (result ++ dropped).Perm ms ∧
    ∀ m ∈ dropped, ∃ n ∈ result, n.Meets m ∧ m.length ≤ n.length

section
variable {m n : Match}

theorem Match.Meets.symm (h : m.Meets n) : n.Meets m := by
  obtain ⟨i, inM, inN⟩ := h
  exact ⟨i, inN, inM⟩

/-- The test of two matches that have characters is whether they have one in common. -/
theorem overlaps_iff (hm : m.start < m.stop) (hn : n.start < n.stop) : m.overlaps n = true ↔ m.Meets n := by
  have test : m.overlaps n = true ↔ m.start < n.stop ∧ n.start < m.stop := by simp [Match.overlaps]
  rw [test]
  constructor
  · -- they have the later one of their first characters
    rintro ⟨before, after⟩
    refine ⟨max m.start n.start, ⟨Int.le_max_left _ _, ?_⟩, Int.le_max_right _ _, ?_⟩
    · exact Int.max_lt.mpr ⟨hm, after⟩
    · exact Int.max_lt.mpr ⟨before, hn⟩
  · rintro ⟨i, ⟨from_m, to_m⟩, from_n, to_n⟩
    exact ⟨Int.lt_of_le_of_lt from_m to_n, Int.lt_of_le_of_lt from_n to_m⟩

theorem length_le_of_rank (h : m.rank ≤ n.rank) : n.length ≤ m.length := by
  have first : -m.length ≤ -n.length := by
    rcases Prod.Lex.le_iff.mp h with less | ⟨same, -⟩
    · exact less.le
    · exact same.le
  omega

end

theorem longer_wins {ms : List Match} (proper : ∀ m ∈ ms, m.start < m.stop) :
    Deduplicated ms (deduplicateMatchesLongerWins ms) := by
  unfold deduplicateMatchesLongerWins
  split
  · next empty =>
    subst empty
    exact ⟨List.Pairwise.nil, List.Pairwise.nil, [], List.Perm.nil, fun _ mem => absurd mem List.not_mem_nil⟩
  · have perm := sortedBy_perm Match.rank ms
    have chosen := chosen_choose Match.overlaps (sortedBy_pairwise Match.rank ms)
    obtain ⟨dropped, whole, lost⟩ := chosen.split
    have sorted := sortedBy_perm Match.start (choose Match.overlaps (sortedBy Match.rank ms))
    have kept_proper : ∀ m ∈ choose Match.overlaps (sortedBy Match.rank ms), m.start < m.stop := fun m mem =>
      proper m (perm.subset (chosen.subset mem))
    refine ⟨sortedBy_pairwise _ _, ?_, dropped, (sorted.append_right dropped).trans (whole.trans perm), fun m mem => ?_⟩
    · have apart : (choose Match.overlaps (sortedBy Match.rank ms)).Pairwise fun m n => ¬m.Meets n := by
        refine chosen.apart.imp_of_mem fun {m n} inM inN free => ?_
        by_contra meet
        rw [(overlaps_iff (kept_proper m inM) (kept_proper n inN)).mpr meet] at free
        cases free
      exact sorted.symm.pairwise apart fun apart meet => apart meet.symm
    · obtain ⟨n, inKept, first, against⟩ := lost m mem
      have inMs : m ∈ ms := perm.subset (whole.subset (List.mem_append_right _ mem))
      exact ⟨n, sorted.mem_iff.mpr inKept, (overlaps_iff (kept_proper n inKept) (proper m inMs)).mp against,
        length_le_of_rank first⟩

/-- Three matches that overlap, two of them equal, and one apart from them. -/
def nameMatches : List Match :=
  [⟨12, 20, "email", "a@b.hu"⟩, ⟨0, 5, "name", "Anna"⟩, ⟨3, 9, "name", "a Bell"⟩, ⟨3, 9, "name", "a Bell"⟩]

theorem longer_wins_names : Deduplicated nameMatches (deduplicateMatchesLongerWins nameMatches) ∧
    deduplicateMatchesLongerWins nameMatches = [⟨3, 9, "name", "a Bell"⟩, ⟨12, 20, "email", "a@b.hu"⟩] :=
  ⟨longer_wins (by decide), by decide⟩

end NyzRating.Shared
