import Mathlib.Algebra.BigOperators.Group.List.Lemmas
import Mathlib.Algebra.GroupWithZero.Nat
import Mathlib.Data.String.Basic
import Mathlib.Order.MinMax
import NyzRating.Lib.Dict
import NyzRating.Lib.Ordered
import NyzRating.Lib.Text

/-!
# Metrics

The registry keeps one series for each name and set of tags: count, sum, extremes, the latest samples and a histogram.
-/

namespace NyzRating.Kernel

/-! ### `metric_registry` -/

structure MetricSeries (α : Type) where
  name : String
  unit : String
  tags : Dict String String
  count : Nat := 0
  sum : α
  min : α
  max : α
  last : α
  values : List α := []
  histogramBuckets : List α
  histogramBucketCounts : List Nat

/-- A call of `observe`; the tags are texts already. -/
structure Observation (α : Type) where
  name : String
  value : α
  unit : String := "count"
  tags : List (String × String) := []

/-- A name, and tags in the order of their keys. -/
abbrev SeriesKey := String × List (String × String)

abbrev MetricRegistry (α : Type) := Dict SeriesKey (MetricSeries α)

def maxSamplesPerSeries : Nat := 2048

/-- The arithmetic of floats, and the bounds of the histograms by unit. -/
structure MetricSettings (α : Type) where
  zero : α
  one : α
  add : α → α → α
  sub : α → α → α
  mul : α → α → α
  /-- `float(n)` -/
  ofCount : Nat → α
  /-- `int(x)` of what is not negative. -/
  floor : α → Nat
  bucketsByUnit : String → Option (List α)
  countBuckets : List α

def sortedItems (d : Dict String String) : List (String × String) := Ordered.sortedBy Prod.fst d.items

def orCount (unit : String) : String := if unit = "" then "count" else unit

variable {α : Type}

/-- The samples are a window at the end. -/
theorem latest_concat (value : α) (obs : List α) :
    (let values := obs.drop (obs.length - maxSamplesPerSeries) ++ [value]
      if maxSamplesPerSeries < values.length then values.tail else values) =
    (obs ++ [value]).drop ((obs ++ [value]).length - maxSamplesPerSeries) := by
  dsimp only
  rw [List.length_append, List.length_append, List.length_drop, List.length_singleton]
  split
  · next full =>
    have within : maxSamplesPerSeries ≤ obs.length := by omega
    have begin' : obs.length + 1 - maxSamplesPerSeries = (obs.length - maxSamplesPerSeries) + 1 := by omega
    rw [begin', ← List.drop_drop, List.drop_append_of_le_length (by omega), ← List.drop_one]
  · next room =>
    have begin' : obs.length + 1 - maxSamplesPerSeries = 0 := by omega
    have begin : obs.length - maxSamplesPerSeries = 0 := by omega
    rw [begin, begin', List.drop_zero, List.drop_zero]

def Observation.key (o : Observation α) : SeriesKey := (o.name, sortedItems (Dict.ofItems o.tags))

variable [LinearOrder α] (cfg : MetricSettings α)

def MetricSettings.seriesBuckets (unit : String) : List α :=
  (cfg.bucketsByUnit (Text.stripLower (orCount unit))).getD cfg.countBuckets

/-- The series that the first observation of a key finds. -/
def Observation.fresh (o : Observation α) : MetricSeries α :=
  let buckets := cfg.seriesBuckets o.unit
  { name := o.name, unit := orCount o.unit, tags := Dict.ofItems o.tags, sum := cfg.zero, min := o.value, max := o.value,
    last := o.value, histogramBuckets := buckets, histogramBucketCounts := buckets.map fun _ => 0 }

def MetricSeries.add (s : MetricSeries α) (value : α) : MetricSeries α :=
  let values := s.values ++ [value]
  { s with
    count := s.count + 1
    sum := cfg.add s.sum value
    min := Min.min s.min value
    max := Max.max s.max value
    last := value
    values := if maxSamplesPerSeries < values.length then values.tail else values
    histogramBucketCounts :=
      List.zipWith (fun upper n => if value ≤ upper then n + 1 else n) s.histogramBuckets s.histogramBucketCounts }

def Observation.into (s : Option (MetricSeries α)) (o : Observation α) : MetricSeries α := (s.getD (o.fresh cfg)).add cfg o.value

def observe (r : MetricRegistry α) (o : Observation α) : MetricRegistry α := r.put o.key (o.into cfg (r.get? o.key))

/-- The registry after the observations. -/
def registry (os : List (Observation α)) : MetricRegistry α := os.foldl (observe cfg) Dict.empty

/-! ### Series and their observations -/

/-- The series summarises its observations. -/
structure Summarises (os : List (Observation α)) (s : MetricSeries α) : Prop where
  count : s.count = os.length
  sum : s.sum = (os.map (·.value)).foldl cfg.add cfg.zero
  last : (os.map (·.value)).getLast? = some s.last
  least : s.min ∈ os.map (·.value) ∧ ∀ o ∈ os, s.min ≤ o.value
  greatest : s.max ∈ os.map (·.value) ∧ ∀ o ∈ os, o.value ≤ s.max
  latest : s.values = (os.map (·.value)).drop (os.length - maxSamplesPerSeries)
  counts : s.histogramBucketCounts = s.histogramBuckets.map fun upper => os.countP (·.value ≤ upper)
  first : ∃ o, os.head? = some o ∧ s.name = o.name ∧ s.unit = orCount o.unit ∧ s.tags = Dict.ofItems o.tags ∧
    s.histogramBuckets = cfg.seriesBuckets o.unit

variable {cfg} {os : List (Observation α)} {s : MetricSeries α}

theorem counts_concat (o : Observation α) (os : List (Observation α)) (bounds : List α) :
    List.zipWith (fun upper n => if o.value ≤ upper then n + 1 else n) bounds
        (bounds.map fun upper => os.countP (·.value ≤ upper)) =
      bounds.map fun upper => (os ++ [o]).countP (·.value ≤ upper) := by
  induction bounds with
  | nil => rfl
  | cons upper bounds ih =>
    rw [List.map_cons, List.zipWith_cons_cons, ih, List.map_cons, List.countP_append, List.countP_singleton]
    split
    · next le => rw [if_pos (decide_eq_true le)]
    · next gt => rw [if_neg (by simpa using gt), Nat.add_zero]

theorem Summarises.fresh (o : Observation α) : Summarises cfg [o] (o.into cfg none) where
  count := rfl
  sum := rfl
  last := rfl
  least := by simp [Observation.into, MetricSeries.add, Observation.fresh]
  greatest := by simp [Observation.into, MetricSeries.add, Observation.fresh]
  latest := by
    have samples := latest_concat o.value []
    rw [List.drop_nil] at samples
    exact samples
  counts := counts_concat o [] _
  first := ⟨o, rfl, rfl, rfl, rfl, rfl⟩

theorem Summarises.into (h : Summarises cfg os s) (o : Observation α) : Summarises cfg (os ++ [o]) (o.into cfg (some s)) where
  count := by simp [Observation.into, MetricSeries.add, h.count]
  sum := by simp [Observation.into, MetricSeries.add, h.sum]
  last := by simp [Observation.into, MetricSeries.add]
  least := by
    rw [List.map_append]
    refine ⟨?_, fun p mem => ?_⟩
    · rcases min_choice s.min o.value with same | same
      · have kept : (o.into cfg (some s)).min = s.min := same
        exact List.mem_append_left _ (kept ▸ h.least.1)
      · exact List.mem_append_right _ (List.mem_singleton.mpr same)
    · rcases List.mem_append.mp mem with old | new
      · exact (min_le_left _ _).trans (h.least.2 p old)
      · exact List.mem_singleton.mp new ▸ min_le_right _ _
  greatest := by
    rw [List.map_append]
    refine ⟨?_, fun p mem => ?_⟩
    · rcases max_choice s.max o.value with same | same
      · have kept : (o.into cfg (some s)).max = s.max := same
        exact List.mem_append_left _ (kept ▸ h.greatest.1)
      · exact List.mem_append_right _ (List.mem_singleton.mpr same)
    · rcases List.mem_append.mp mem with old | new
      · exact (h.greatest.2 p old).trans (le_max_left _ _)
      · exact List.mem_singleton.mp new ▸ le_max_right _ _
  latest := by
    have samples := latest_concat o.value (os.map (·.value))
    rw [List.length_map, ← h.latest, List.length_append, List.length_map] at samples
    rw [List.map_append, List.length_append]
    exact samples
  counts := by
    rw [Observation.into, Option.getD_some, MetricSeries.add, h.counts]
    exact counts_concat o os _
  first := by
    obtain ⟨first, at_head, facts⟩ := h.first
    exact ⟨first, by rw [List.head?_append, at_head]; rfl, facts⟩

/-! ### The registry after a run -/

theorem registry_eq (os : List (Observation α)) :
    registry cfg os = Dict.grouped Observation.key (fun s o => o.into cfg s) os := rfl

def observationsOf (key : SeriesKey) (os : List (Observation α)) : List (Observation α) := os.filter (·.key = key)

theorem fold_into (os : List (Observation α)) :
    match os.foldl (fun s o => some (o.into cfg s)) none with
    | none => os = []
    | some s => Summarises cfg os s := by
  induction os using List.reverseRecOn with
  | nil => rfl
  | append_singleton os o ih =>
    rw [List.foldl_append, List.foldl_cons, List.foldl_nil]
    cases before : os.foldl (fun s o => some (o.into cfg s)) none with
    | none =>
      rw [before] at ih
      obtain rfl : os = [] := ih
      exact Summarises.fresh o
    | some s =>
      rw [before] at ih
      exact ih.into o

variable (cfg) in
/-- A series is there from its first observation, and summarises all of them. -/
theorem registry_series (os : List (Observation α)) (key : SeriesKey) :
    match (registry cfg os).get? key with
    | none => observationsOf key os = []
    | some s => Summarises cfg (observationsOf key os) s := by
  rw [registry_eq, Dict.get?_grouped]
  exact fold_into _

theorem summarises_of_get? {key : SeriesKey} (found : (registry cfg os).get? key = some s) :
    Summarises cfg (observationsOf key os) s := by
  have series := registry_series cfg os key
  rw [found] at series
  exact series

/-! ### `snapshot` -/

/-- What the series of a name come to. -/
structure Aggregate (α : Type) where
  count : Nat
  sum : α
  min : α
  max : α
  last : α
  unit : String
  tags : Dict String String
  samples : List α

variable (cfg) in
/-- `_quantile` -/
def quantile (values : List α) (ratio : α) : α :=
  match values with
  | [] => cfg.zero
  | [v] => v
  | values =>
    let sorted := Ordered.sortedBy id values
    let position := cfg.mul ratio (cfg.ofCount (sorted.length - 1))
    let lowerIdx := cfg.floor position
    let upperIdx := Min.min (lowerIdx + 1) (sorted.length - 1)
    if lowerIdx = upperIdx then sorted.getD lowerIdx cfg.zero
    else
      let weight := cfg.sub position (cfg.ofCount lowerIdx)
      cfg.add (cfg.mul (sorted.getD lowerIdx cfg.zero) (cfg.sub cfg.one weight)) (cfg.mul (sorted.getD upperIdx cfg.zero) weight)

variable (cfg) in
/-- The aggregate that the first series of a name finds. -/
def MetricSeries.start (s : MetricSeries α) : Aggregate α where
  count := 0
  sum := cfg.zero
  min := s.min
  max := s.max
  last := s.last
  unit := s.unit
  tags := s.tags
  samples := []

variable (cfg) in
def MetricSeries.into (current : Option (Aggregate α)) (s : MetricSeries α) : Aggregate α :=
  let current := current.getD (s.start cfg)
  { current with
    count := current.count + s.count
    sum := cfg.add current.sum s.sum
    min := Min.min current.min s.min
    max := Max.max current.max s.max
    last := s.last
    samples := current.samples ++ s.values }

variable (cfg) in
/-- The aggregates by name. -/
def aggregated (r : MetricRegistry α) : Dict String (Aggregate α) :=
  Dict.grouped MetricSeries.name (fun current s => s.into cfg current) (r.items.map Prod.snd)

/-- What is reported for a name. -/
structure MetricSnapshot (α : Type) extends Aggregate α where
  p95 : α
  p99 : α

variable (cfg) in
def snapshot (p95 p99 : α) (r : MetricRegistry α) : List (String × MetricSnapshot α) :=
  (aggregated cfg r).items.map fun (name, a) =>
    (name, { a with p95 := quantile cfg a.samples p95, p99 := quantile cfg a.samples p99 })

/-- The aggregate is of the series, in this order. -/
structure Merged (ss : List (MetricSeries α)) (a : Aggregate α) : Prop where
  count : a.count = (ss.map (·.count)).sum
  least : (∃ s ∈ ss, a.min = s.min) ∧ ∀ s ∈ ss, a.min ≤ s.min
  greatest : (∃ s ∈ ss, a.max = s.max) ∧ ∀ s ∈ ss, s.max ≤ a.max
  first : ∃ s, ss.head? = some s ∧ a.unit = s.unit ∧ a.tags = s.tags
  last : ∃ s, ss.getLast? = some s ∧ a.last = s.last

theorem Merged.start (s : MetricSeries α) : Merged [s] (s.into cfg none) where
  count := by simp [MetricSeries.into, MetricSeries.start]
  least := by simp [MetricSeries.into, MetricSeries.start]
  greatest := by simp [MetricSeries.into, MetricSeries.start]
  first := ⟨s, rfl, rfl, rfl⟩
  last := ⟨s, rfl, rfl⟩

theorem Merged.into {ss : List (MetricSeries α)} {a : Aggregate α} (h : Merged ss a) (s : MetricSeries α) :
    Merged (ss ++ [s]) (s.into cfg (some a)) where
  count := by simp [MetricSeries.into, h.count]
  least := by
    obtain ⟨⟨t, mem, least⟩, all⟩ := h.least
    refine ⟨?_, fun u mem => ?_⟩
    · rcases min_choice a.min s.min with same | same
      · exact ⟨t, List.mem_append_left _ mem, same.trans least⟩
      · exact ⟨s, by simp, same⟩
    · rcases List.mem_append.mp mem with old | new
      · exact (min_le_left _ _).trans (all u old)
      · exact List.mem_singleton.mp new ▸ min_le_right _ _
  greatest := by
    obtain ⟨⟨t, mem, greatest⟩, all⟩ := h.greatest
    refine ⟨?_, fun u mem => ?_⟩
    · rcases max_choice a.max s.max with same | same
      · exact ⟨t, List.mem_append_left _ mem, same.trans greatest⟩
      · exact ⟨s, by simp, same⟩
    · rcases List.mem_append.mp mem with old | new
      · exact (all u old).trans (le_max_left _ _)
      · exact List.mem_singleton.mp new ▸ le_max_right _ _
  first := by
    obtain ⟨first, at_head, facts⟩ := h.first
    exact ⟨first, by rw [List.head?_append, at_head]; rfl, facts⟩
  last := ⟨s, by simp, rfl⟩

variable (cfg) in
theorem fold_merged (ss : List (MetricSeries α)) :
    match ss.foldl (fun a s => some (s.into cfg a)) none with
    | none => ss = []
    | some a => Merged ss a := by
  induction ss using List.reverseRecOn with
  | nil => rfl
  | append_singleton ss s ih =>
    rw [List.foldl_append, List.foldl_cons, List.foldl_nil]
    cases before : ss.foldl (fun a s => some (s.into cfg a)) none with
    | none =>
      rw [before] at ih
      obtain rfl : ss = [] := ih
      exact Merged.start s
    | some a =>
      rw [before] at ih
      exact ih.into s

/-! ### Snapshots after a run -/

section Snapshot

variable {name : String} {key : SeriesKey}

/-- The series of a name, in the order of their first observations. -/
def seriesOf (name : String) (r : MetricRegistry α) : List (SeriesKey × MetricSeries α) := r.items.filter (·.1.1 = name)

theorem summarises_of_mem {item : SeriesKey × MetricSeries α} (mem : item ∈ (registry cfg os).items) :
    Summarises cfg (observationsOf item.1 os) item.2 :=
  summarises_of_get? ((Dict.mem_items_iff _).mp mem)

theorem first_of_mem {item : SeriesKey × MetricSeries α} (mem : item ∈ (registry cfg os).items) :
    ∃ o, os.find? (·.key = item.1) = some o ∧
      item.2.name = item.1.1 ∧ item.2.unit = orCount o.unit ∧ item.2.tags = Dict.ofItems o.tags := by
  obtain ⟨o, at_head, name, unit, tags, -⟩ := (summarises_of_mem mem).first
  rw [observationsOf, List.head?_filter] at at_head
  have same : o.key = item.1 := by simpa using List.find?_some at_head
  exact ⟨o, at_head, by rw [name, ← same]; rfl, unit, tags⟩

theorem filter_series (name : String) :
    ((registry cfg os).items.map Prod.snd).filter (·.name = name) = (seriesOf name (registry cfg os)).map Prod.snd := by
  rw [List.filter_map, seriesOf]
  refine congrArg _ (List.filter_congr fun item mem => ?_)
  obtain ⟨-, -, same, -⟩ := first_of_mem mem
  exact congrArg (fun n => decide (n = name)) same

variable (cfg) in
theorem keys_registry : (registry cfg os).keys = Dict.firsts (os.map Observation.key) := by
  rw [registry_eq]
  exact Dict.keys_grouped

variable (cfg) in
theorem keys_seriesOf (name : String) :
    (seriesOf name (registry cfg os)).map Prod.fst = (Dict.firsts (os.map Observation.key)).filter (·.1 = name) := by
  rw [← keys_registry cfg, Dict.keys, List.filter_map]
  rfl

variable (cfg) in
theorem exists_series {o : Observation α} (mem : o ∈ os) (named : o.name = name) :
    ∃ item ∈ seriesOf name (registry cfg os), o ∈ observationsOf item.1 os := by
  have known : o.key ∈ (registry cfg os).keys := by
    rw [keys_registry, Dict.mem_firsts]
    exact List.mem_map_of_mem mem
  obtain ⟨item, within, same⟩ := List.mem_map.mp known
  exact ⟨item, List.mem_filter.mpr ⟨within, decide_eq_true (by rw [same]; exact named)⟩, List.mem_filter.mpr ⟨mem, by simp [same]⟩⟩

/-- What is reported for a name, in terms of the observations. -/
structure Aggregates (name : String) (os : List (Observation α)) (a : Aggregate α) : Prop where
  /-- All observations of the name are counted, whatever their tags. -/
  count : a.count = os.countP (·.name = name)
  least : (∃ o ∈ os, o.name = name ∧ a.min = o.value) ∧ ∀ o ∈ os, o.name = name → a.min ≤ o.value
  greatest : (∃ o ∈ os, o.name = name ∧ a.max = o.value) ∧ ∀ o ∈ os, o.name = name → o.value ≤ a.max
  /-- The tags are those of the first one. -/
  first : ∃ o, os.find? (·.name = name) = some o ∧ a.unit = orCount o.unit ∧ a.tags = Dict.ofItems o.tags
  /-- The last value is of the tags that were seen first the latest. -/
  last : ∃ key, ((Dict.firsts (os.map Observation.key)).filter (·.1 = name)).getLast? = some key ∧
    ((observationsOf key os).map (·.value)).getLast? = some a.last

theorem countP_name (name : String) :
    ((seriesOf name (registry cfg os)).map fun item => item.2.count).sum = os.countP (·.name = name) := by
  have counts : (seriesOf name (registry cfg os)).map (fun item => item.2.count) =
      ((Dict.firsts (os.map Observation.key)).filter (·.1 = name)).map fun key => (os.map Observation.key).countP (· = key) := by
    rw [← keys_seriesOf cfg, List.map_map]
    refine List.map_congr_left fun item mem => ?_
    rw [(summarises_of_mem (List.mem_filter.mp mem).1).count, observationsOf, Function.comp, List.countP_map,
      List.countP_eq_length_filter]
    rfl
  rw [counts, Dict.sum_countP_firsts, List.countP_map]
  rfl

/-- The first series of a name is the one of its first observation. -/
theorem find?_name {item : SeriesKey × MetricSeries α} (at_head : (seriesOf name (registry cfg os)).head? = some item) :
    ∃ o, os.find? (·.name = name) = some o ∧ o.key = item.1 := by
  have keyed : ((seriesOf name (registry cfg os)).map Prod.fst).head? = some item.1 := by rw [List.head?_map, at_head]; rfl
  rw [keys_seriesOf, List.head?_filter, Dict.find?_firsts, List.find?_map] at keyed
  exact Option.map_eq_some_iff.mp keyed

omit [LinearOrder α] in
/-- The first observation of a name is the first one of its series. -/
theorem find?_key {o : Observation α} (found : os.find? (·.name = name) = some o) (same : o.key = key) :
    os.find? (·.key = key) = some o := by
  obtain ⟨named, before, after, split, others⟩ := List.find?_eq_some_iff_append.mp found
  refine List.find?_eq_some_iff_append.mpr ⟨decide_eq_true same, before, after, split, fun p mem => ?_⟩
  have other : p.name ≠ name := by simpa using others p mem
  have named : o.name = name := by simpa using named
  have keys : p.key ≠ key := fun equal => other (by rw [← named]; exact congrArg Prod.fst (equal.trans same.symm))
  simpa using keys

theorem Merged.aggregates {a : Aggregate α} (h : Merged ((seriesOf name (registry cfg os)).map Prod.snd) a) :
    Aggregates name os a where
  count := by
    rw [h.count, List.map_map]
    exact countP_name name
  least := by
    obtain ⟨⟨s, mem, least⟩, all⟩ := h.least
    refine ⟨?_, fun o mem named => ?_⟩
    · obtain ⟨item, within, rfl⟩ := List.mem_map.mp mem
      obtain ⟨mem, named⟩ := List.mem_filter.mp within
      obtain ⟨o, observed, value⟩ := List.mem_map.mp (summarises_of_mem mem).least.1
      obtain ⟨mem, key⟩ := List.mem_filter.mp observed
      have key : o.key = item.1 := by simpa using key
      have named : item.1.1 = name := by simpa using named
      exact ⟨o, mem, by rw [← named, ← key]; rfl, least.trans value.symm⟩
    · obtain ⟨item, within, observed⟩ := exists_series cfg mem named
      exact (all _ (List.mem_map_of_mem within)).trans ((summarises_of_mem (List.mem_filter.mp within).1).least.2 o observed)
  greatest := by
    obtain ⟨⟨s, mem, greatest⟩, all⟩ := h.greatest
    refine ⟨?_, fun o mem named => ?_⟩
    · obtain ⟨item, within, rfl⟩ := List.mem_map.mp mem
      obtain ⟨mem, named⟩ := List.mem_filter.mp within
      obtain ⟨o, observed, value⟩ := List.mem_map.mp (summarises_of_mem mem).greatest.1
      obtain ⟨mem, key⟩ := List.mem_filter.mp observed
      have key : o.key = item.1 := by simpa using key
      have named : item.1.1 = name := by simpa using named
      exact ⟨o, mem, by rw [← named, ← key]; rfl, greatest.trans value.symm⟩
    · obtain ⟨item, within, observed⟩ := exists_series cfg mem named
      exact ((summarises_of_mem (List.mem_filter.mp within).1).greatest.2 o observed).trans (all _ (List.mem_map_of_mem within))
  first := by
    obtain ⟨s, head, unit, tags⟩ := h.first
    obtain ⟨item, at_head, rfl⟩ := Option.map_eq_some_iff.mp (List.head?_map.symm.trans head)
    obtain ⟨o, found, same⟩ := find?_name at_head
    obtain ⟨o', found', -, unit', tags'⟩ := first_of_mem (List.mem_filter.mp (List.mem_of_head? at_head)).1
    obtain rfl : o = o' := Option.some.inj ((find?_key found same).symm.trans found')
    exact ⟨o, found, unit.trans unit', tags.trans tags'⟩
  last := by
    obtain ⟨s, end', last⟩ := h.last
    obtain ⟨item, at_last, rfl⟩ := Option.map_eq_some_iff.mp (List.getLast?_map.symm.trans end')
    have series := summarises_of_mem (List.mem_filter.mp (List.mem_of_getLast? at_last)).1
    refine ⟨item.1, ?_, last ▸ series.last⟩
    rw [← keys_seriesOf cfg, List.getLast?_map, at_last]
    rfl

/-- A name is reported from its first observation; its count and extremes are those of all its observations, but its tags are
    those of the first one. -/
theorem aggregated_run (os : List (Observation α)) (name : String) :
    match (aggregated cfg (registry cfg os)).get? name with
    | none => ∀ o ∈ os, o.name ≠ name
    | some a => Aggregates name os a := by
  have merged := fold_merged cfg ((seriesOf name (registry cfg os)).map Prod.snd)
  rw [aggregated, Dict.get?_grouped, filter_series]
  cases found : ((seriesOf name (registry cfg os)).map Prod.snd).foldl (fun a s => some (s.into cfg a)) none with
  | none =>
    rw [found] at merged
    intro o mem named
    obtain ⟨item, within, -⟩ := exists_series cfg mem named
    have nothing : (seriesOf name (registry cfg os)).map Prod.snd = [] := merged
    rw [List.map_eq_nil_iff.mp nothing] at within
    cases within
  | some a =>
    rw [found] at merged
    exact merged.aggregates

end Snapshot

/-! ### Histograms -/

/-- The counts that `_render_native_histogram_for_series` writes: it sums up what is cumulative already. -/
def runningCounts (running : Nat) : List Nat → List Nat
  | [] => []
  | n :: ns => (running + n) :: runningCounts (running + n) ns

theorem length_runningCounts (running : Nat) (ns : List Nat) : (runningCounts running ns).length = ns.length := by
  induction ns generalizing running with
  | nil => rfl
  | cons n ns ih => rw [runningCounts, List.length_cons, ih, List.length_cons]

theorem getElem?_runningCounts {ns : List Nat} {running i : Nat} (lt : i < ns.length) :
    (runningCounts running ns)[i]? = some (running + (ns.take (i + 1)).sum) := by
  induction ns generalizing running i with
  | nil => exact absurd lt (Nat.not_lt_zero i)
  | cons n ns ih =>
    cases i with
    | zero => simp [runningCounts]
    | succ i =>
      rw [runningCounts, List.getElem?_cons_succ, ih (Nat.lt_of_succ_lt_succ lt), List.take_succ_cons, List.sum_cons,
        Nat.add_assoc]

/-- The bucket that is written for a bound counts every observation once for each bound up to it that is not below the
    observation; the count is right just when no observation is within an earlier bound. -/
theorem exposed_bucket {key : SeriesKey} {i : Nat} {upper : α} (found : (registry cfg os).get? key = some s)
    (bound : s.histogramBuckets[i]? = some upper) :
    ∃ n, (runningCounts 0 s.histogramBucketCounts)[i]? = some n ∧
      n = ((s.histogramBuckets.take (i + 1)).map fun u => (observationsOf key os).countP (·.value ≤ u)).sum ∧
      (n = (observationsOf key os).countP (·.value ≤ upper) ↔
        ∀ u ∈ s.histogramBuckets.take i, ∀ o ∈ observationsOf key os, u < o.value) := by
  have series := summarises_of_get? found
  obtain ⟨lt, rfl⟩ := List.getElem?_eq_some_iff.mp bound
  refine ⟨_, getElem?_runningCounts (by rw [series.counts, List.length_map]; exact lt), ?_, ?_⟩
  · rw [Nat.zero_add, series.counts, ← List.map_take]
  · rw [Nat.zero_add, series.counts, ← List.map_take, List.take_add_one, List.getElem?_eq_getElem lt, List.map_append,
      List.sum_append]
    simp only [Option.toList_some, List.map_cons, List.map_nil, List.sum_singleton, Nat.add_eq_right]
    rw [List.sum_eq_zero_iff_forall_eq_nat]
    simp only [List.mem_map, forall_exists_index, and_imp, forall_apply_eq_imp_iff₂, List.countP_eq_zero, decide_eq_true_eq,
      not_le]

/-- Whole numbers for floats. -/
def wholeNumbers : MetricSettings Nat where
  zero := 0
  one := 1
  add := (· + ·)
  sub := (· - ·)
  mul := (· * ·)
  ofCount := id
  floor := id
  bucketsByUnit unit := if unit = "ms" then some [5, 10, 25] else none
  countBuckets := [1, 2, 5]

/-- Two observations: the second bound has counted the first one twice. -/
theorem exposed_bucket_of_two :
    let os : List (Observation Nat) := [{ name := "retries", value := 1 }, { name := "retries", value := 2 }]
    ∃ s n, (registry wholeNumbers os).get? ("retries", []) = some s ∧ (runningCounts 0 s.histogramBucketCounts)[1]? = some n ∧
      n = ((s.histogramBuckets.take 2).map fun u => (observationsOf ("retries", []) os).countP (·.value ≤ u)).sum ∧
      (n = (observationsOf ("retries", []) os).countP (·.value ≤ 2) ↔
        ∀ u ∈ s.histogramBuckets.take 1, ∀ o ∈ observationsOf ("retries", []) os, u < o.value) := by
  intro os
  have found : (registry wholeNumbers os).get? ("retries", []) = some _ := rfl
  obtain ⟨n, facts⟩ := exposed_bucket (i := 1) found (rfl : _ = some 2)
  exact ⟨_, n, found, facts⟩

end NyzRating.Kernel
