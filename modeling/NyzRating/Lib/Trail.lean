import Mathlib.Tactic.Common

/-!
# Logs that account for changes

A state is looked at by its readings, one for each key. An entry of a log tells a change; it names some keys,
  and may give the value
that one of them had and the value that it took.
-/

namespace Trail

variable {σ κ ν ε : Type} {read : σ → κ → ν} {Tells : σ → ε → σ → Prop} {s t u : σ} {es fs : List ε}

/-- The entries tell all that came between two states: before, between and after them no reading changed. -/
inductive Accounts (read : σ → κ → ν) (Tells : σ → ε → σ → Prop) : σ → List ε → σ → Prop
  | still {s t : σ} (same : ∀ k, read t k = read s k) : Accounts read Tells s [] t
  | entry {s t : σ} {e : ε} (told : Tells s e t) : Accounts read Tells s [e] t
  | append {s t u : σ} {es fs : List ε} (before : Accounts read Tells s es t) (after : Accounts read Tells t fs u) :
      Accounts read Tells s (es ++ fs) u

theorem Accounts.refl (s : σ) : Accounts read Tells s [] s := .still fun _ => rfl

/-- Readings that depend on these. -/
theorem Accounts.mono {κ' ν' : Type} {read' : σ → κ' → ν'} (h : Accounts read Tells s es t)
    (le : ∀ {s t}, (∀ k, read t k = read s k) → ∀ k, read' t k = read' s k) : Accounts read' Tells s es t := by
  induction h with
  | still same => exact .still (le same)
  | entry told => exact .entry told
  | append _ _ before after => exact before.append after

/-- Where entries name the keys whose reading they change, no change stays untold. -/
theorem Accounts.named (h : Accounts read Tells s es t) {Names : ε → κ → Prop}
    (names : ∀ {s e t} k, Tells s e t → read t k ≠ read s k → Names e k) {k : κ} (changed : read t k ≠ read s k) :
    ∃ e ∈ es, Names e k := by
  induction h with
  | still same => exact absurd (same k) changed
  | @entry s t e told => exact ⟨e, List.mem_singleton_self e, names k told changed⟩
  | @append s t u es fs _ _ before after =>
    by_cases same : read t k = read s k
    · obtain ⟨e, mem, named⟩ := after (same ▸ changed)
      exact ⟨e, List.mem_append_right es mem, named⟩
    · obtain ⟨e, mem, named⟩ := before same
      exact ⟨e, List.mem_append_left fs mem, named⟩

/-- Every entry tells of a change, with the entries before it and behind it telling what came before and after. -/
theorem Accounts.split (h : Accounts read Tells s es t) {as bs : List ε} {e : ε} (at_e : es = as ++ e :: bs) :
    ∃ s' t', Accounts read Tells s as s' ∧ Tells s' e t' ∧ Accounts read Tells t' bs t := by
  induction h generalizing as bs with
  | still => exact absurd at_e.symm (by simp)
  | @entry s t e' told =>
    obtain ⟨rfl, only⟩ | ⟨rest, -, none⟩ := List.cons_eq_append_iff.mp at_e
    · obtain ⟨rfl, rfl⟩ := List.cons.inj only
      exact ⟨s, t, .refl s, told, .refl t⟩
    · exact absurd none.symm (by simp)
  | @append s t u es fs first second before after =>
    rcases List.append_eq_append_iff.mp at_e with ⟨gs, rfl, split⟩ | ⟨gs, rfl, split⟩
    · obtain ⟨s', t', early, told, late⟩ := after split
      exact ⟨s', t', first.append early, told, late⟩
    · cases gs with
      | nil =>
        have later : fs = [] ++ e :: bs := split.symm
        obtain ⟨s', t', early, told, late⟩ := after later
        exact ⟨s', t', by simpa only [List.append_nil] using first.append early, told, late⟩
      | cons g gs =>
        obtain ⟨rfl, rfl⟩ := List.cons.inj split
        obtain ⟨s', t', early, told, late⟩ := before rfl
        exact ⟨s', t', early, told, late.append second⟩

/-- A chain of changes from `a` to `b`, each from the value that the one before led to, to another. -/
def Linked : ν → List (ν × ν) → ν → Prop
  | a, [], b => a = b
  | a, c :: cs, b => c.1 = a ∧ c.2 ≠ a ∧ Linked c.2 cs b

theorem Linked.append {a b c : ν} {xs ys : List (ν × ν)} (first : Linked a xs b) (second : Linked b ys c) :
    Linked a (xs ++ ys) c := by
  induction xs generalizing a with
  | nil =>
    obtain rfl : a = b := first
    exact second
  | cons x xs ih => exact ⟨first.1, first.2.1, ih first.2.2⟩

/-- The entries that give values of a key tell all its values, one after another. -/
theorem Accounts.linked (h : Accounts read Tells s es t) {said : ε → Option (ν × ν)} {k : κ}
    (silent : ∀ {s e t}, Tells s e t → said e = none → read t k = read s k)
    (spoken : ∀ {s e t c}, Tells s e t → said e = some c → c.1 = read s k ∧ c.2 = read t k ∧ read t k ≠ read s k) :
    Linked (read s k) (es.filterMap said) (read t k) := by
  induction h with
  | still same => exact (same k).symm
  | @entry s t e told =>
    cases value : said e with
    | none =>
      rw [List.filterMap_cons_none value]
      exact (silent told value).symm
    | some c =>
      obtain ⟨old, new, differ⟩ := spoken told value
      rw [List.filterMap_cons_some value]
      exact ⟨old, new ▸ differ, new⟩
  | append _ _ before after =>
    rw [List.filterMap_append]
    exact before.append after

end Trail
