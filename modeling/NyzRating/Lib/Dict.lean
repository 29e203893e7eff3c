import Mathlib.Algebra.BigOperators.Group.List.Lemmas
import Mathlib.Algebra.GroupWithZero.Nat
import Mathlib.Data.List.Induction
import Mathlib.Data.List.Nodup
import Mathlib.Tactic.Common

/-!
# Dictionaries

A dictionary keeps its items in the order in which their keys came; a key that is put again keeps its place.
-/

/-- The items of a dictionary. -/
structure Dict (κ α : Type) where
  items : List (κ × α)
  distinct : (items.map Prod.fst).Nodup

namespace Dict

variable {κ α : Type} [DecidableEq κ]

def empty : Dict κ α := ⟨[], List.nodup_nil⟩

def keys (d : Dict κ α) : List κ := d.items.map Prod.fst

def get? (d : Dict κ α) (k : κ) : Option α := (d.items.find? (·.1 = k)).map Prod.snd

variable {k j : κ} {a : α}

/-- The items with the value of one key replaced. -/
def replaced (k : κ) (a : α) (items : List (κ × α)) : List (κ × α) := items.map fun item => if item.1 = k then (k, a) else item

theorem keys_replaced (items : List (κ × α)) : (replaced k a items).map Prod.fst = items.map Prod.fst := by
  rw [replaced, List.map_map]
  refine List.map_congr_left fun item _ => ?_
  dsimp only [Function.comp]
  split
  · next same => exact same.symm
  · rfl

def put (d : Dict κ α) (k : κ) (a : α) : Dict κ α :=
  if known : k ∈ d.keys then ⟨replaced k a d.items, (keys_replaced d.items).symm ▸ d.distinct⟩
  else
    ⟨d.items ++ [(k, a)], by
      rw [List.map_append, List.map_singleton]
      exact List.nodup_append.mpr ⟨d.distinct, List.nodup_singleton k, fun x mem y last => by
        rintro rfl
        rw [List.mem_singleton.mp last] at mem
        exact known mem⟩⟩

/-- The items put one after another into an empty dictionary. -/
def ofItems (items : List (κ × α)) : Dict κ α := items.foldl (fun d item => d.put item.1 item.2) empty

variable (d : Dict κ α)

theorem items_put : (d.put k a).items = if k ∈ d.keys then replaced k a d.items else d.items ++ [(k, a)] := by
  unfold put
  split <;> rfl

theorem keys_put : (d.put k a).keys = if k ∈ d.keys then d.keys else d.keys ++ [k] := by
  rw [keys, items_put]
  split
  · exact keys_replaced d.items
  · simp [keys]

theorem get?_eq_none_iff : d.get? k = none ↔ k ∉ d.keys := by
  simp only [get?, keys, Option.map_eq_none_iff, List.find?_eq_none, decide_eq_true_eq, List.mem_map]
  exact ⟨fun h ⟨item, mem, same⟩ => h item mem same, fun h item mem same => h ⟨item, mem, same⟩⟩

theorem find?_replaced (items : List (κ × α)) :
    (replaced k a items).find? (·.1 = j) =
      if j = k then (items.find? (·.1 = j)).map (fun _ => (k, a)) else items.find? (·.1 = j) := by
  induction items with
  | nil => simp [replaced]
  | cons item items ih =>
    rw [replaced, List.map_cons, List.find?_cons, List.find?_cons]
    by_cases here : item.1 = k <;> by_cases there : item.1 = j <;> by_cases same : j = k <;> simp_all [replaced]

theorem get?_put : (d.put k a).get? j = if j = k then some a else d.get? j := by
  unfold put
  split
  · next known =>
    unfold get?
    dsimp only
    rw [find?_replaced]
    split
    · next same =>
      subst same
      cases found : d.items.find? (·.1 = j) with
      | none => exact absurd ((d.get?_eq_none_iff).mp (by rw [get?, found]; rfl)) (not_not.mpr known)
      | some item => rfl
    · rfl
  · next unknown =>
    unfold get?
    dsimp only
    rw [List.find?_append]
    by_cases same : j = k
    · subst same
      have missing : d.items.find? (·.1 = j) = none := by
        have none_there := d.get?_eq_none_iff.mpr unknown
        exact Option.map_eq_none_iff.mp none_there
      simp [missing]
    · cases found : d.items.find? (·.1 = j) with
      | none => simp [same, Ne.symm same]
      | some item => simp [same]

theorem mem_items_iff {item : κ × α} : item ∈ d.items ↔ d.get? item.1 = some item.2 := by
  constructor
  · intro mem
    have found : d.items.find? (·.1 = item.1) = some item := by
      have some_found : (d.items.find? (·.1 = item.1)).isSome := List.find?_isSome.mpr ⟨item, mem, by simp⟩
      obtain ⟨other, found⟩ := Option.isSome_iff_exists.mp some_found
      have same : other.1 = item.1 := by simpa using List.find?_some found
      rw [found, List.inj_on_of_nodup_map d.distinct (List.mem_of_find?_eq_some found) mem same]
    rw [get?, found]
    rfl
  · intro found
    obtain ⟨other, first, same⟩ := Option.map_eq_some_iff.mp found
    have key : other.1 = item.1 := by simpa using List.find?_some first
    have whole : other = item := Prod.ext key same
    exact whole ▸ List.mem_of_find?_eq_some first

theorem map_keys_get? {β : Type} (f : κ → α → β) (g : κ → β) (each : ∀ k a, d.get? k = some a → f k a = g k) :
    d.items.map (fun item => f item.1 item.2) = d.keys.map g := by
  rw [keys, List.map_map]
  exact List.map_congr_left fun item mem => each item.1 item.2 (d.mem_items_iff.mp mem)

/-! ### Other values -/

section Values

variable {β : Type} (f : α → β)

/-- The dictionary with the function of each value. -/
def mapValues (d : Dict κ α) : Dict κ β where
  items := d.items.map fun item => (item.1, f item.2)
  distinct := by
    rw [List.map_map]
    exact d.distinct

omit [DecidableEq κ] in
theorem keys_mapValues : (d.mapValues f).keys = d.keys := List.map_map

theorem mapValues_put : (d.put k a).mapValues f = (d.mapValues f).put k (f a) := by
  have same : ∀ d e : Dict κ β, d.items = e.items → d = e := by
    rintro ⟨items, -⟩ ⟨items', -⟩ rfl
    rfl
  refine same _ _ ?_
  have items : ((d.put k a).mapValues f).items = (d.put k a).items.map fun item => (item.1, f item.2) := rfl
  rw [items, items_put, items_put, keys_mapValues]
  split
  · simp only [mapValues, replaced, List.map_map]
    refine List.map_congr_left fun item _ => ?_
    dsimp only [Function.comp]
    split <;> rfl
  · simp [mapValues]

end Values

/-! ### First occurrences -/

section Firsts

/-- The elements in the order in which they come first. -/
def firsts (l : List κ) : List κ := l.eraseDups

theorem mem_firsts {l : List κ} : k ∈ firsts l ↔ k ∈ l := List.mem_eraseDups

theorem firsts_concat (l : List κ) (k : κ) : firsts (l ++ [k]) = if k ∈ l then firsts l else firsts l ++ [k] := by
  rw [firsts, List.eraseDups_append, List.removeAll, List.filter_singleton]
  split
  · next known => simp [known, firsts]
  · next unknown => simp [unknown, firsts, List.eraseDups_cons]

theorem nodup_firsts (l : List κ) : (firsts l).Nodup := by
  induction l using List.reverseRecOn with
  | nil => exact List.nodup_nil
  | append_singleton l k ih =>
    rw [firsts_concat]
    split
    · exact ih
    · next unknown =>
      refine List.nodup_append.mpr ⟨ih, List.nodup_singleton k, fun i mem j last => ?_⟩
      rw [List.mem_singleton.mp last]
      rintro rfl
      exact unknown (mem_firsts.mp mem)

theorem find?_firsts {l : List κ} (p : κ → Bool) : (firsts l).find? p = l.find? p := by
  induction l using List.reverseRecOn with
  | nil => rfl
  | append_singleton l k ih =>
    rw [firsts_concat, List.find?_append, ← ih]
    split
    · next known =>
      cases found : (firsts l).find? p with
      | some other => rfl
      | none =>
        have refused := List.find?_eq_none.mp found k (mem_firsts.mpr known)
        simp [refused]
    · rw [List.find?_append]

/-- Each element is counted at its first occurrence. -/
theorem sum_countP_firsts (p : κ → Bool) (l : List κ) :
    (((firsts l).filter p).map fun k => l.countP (· = k)).sum = l.countP p := by
  have same : (firsts l).Perm l.dedup :=
    (List.perm_ext_iff_of_nodup (nodup_firsts l) (List.nodup_dedup l)).mpr fun k => by rw [mem_firsts, List.mem_dedup]
  rw [((same.filter p).map _).sum_eq, ← List.sum_map_count_dedup_filter_eq_countP]
  rfl

end Firsts

/-! ### Grouping -/

section Grouping

variable {β : Type} (key : β → κ) (f : Option α → β → α)

/-- Each entry goes to what its key holds. -/
def grouped (l : List β) : Dict κ α := l.foldl (fun d x => d.put (key x) (f (d.get? (key x)) x)) empty

variable {key f} {l : List β} {x : β}

theorem grouped_concat : grouped key f (l ++ [x]) = (grouped key f l).put (key x) (f ((grouped key f l).get? (key x)) x) := by
  rw [grouped, List.foldl_append]
  rfl

/-- A key holds what the entries with the key have come to. -/
theorem get?_grouped : (grouped key f l).get? k = (l.filter (key · = k)).foldl (fun a x => some (f a x)) none := by
  induction l using List.reverseRecOn with
  | nil => rfl
  | append_singleton l x ih =>
    rw [grouped_concat, get?_put, List.filter_append, List.foldl_append, ← ih]
    by_cases same : key x = k
    · subst same
      simp
    · simp [same, Ne.symm same]

/-- The keys come in the order of their first entries. -/
theorem keys_grouped : (grouped key f l).keys = firsts (l.map key) := by
  induction l using List.reverseRecOn with
  | nil => rfl
  | append_singleton l x ih =>
    rw [grouped_concat, keys_put, ih, List.map_append, List.map_singleton, firsts_concat]
    simp only [mem_firsts]

theorem mem_keys_grouped : k ∈ (grouped key f l).keys ↔ ∃ x ∈ l, key x = k := by
  rw [keys_grouped, mem_firsts, List.mem_map]

theorem grouped_eq_none_iff : (grouped key f l).get? k = none ↔ ∀ x ∈ l, key x ≠ k := by
  rw [get?_eq_none_iff, mem_keys_grouped, not_exists]
  exact forall_congr' fun x => not_and

end Grouping

end Dict
