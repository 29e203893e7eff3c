import Mathlib.Data.Prod.Lex
import Mathlib.Data.String.Basic
import NyzRating.Kernel.Metrics
import NyzRating.Lib.Exposition
import NyzRating.Lib.Split

/-!
# The Prometheus page

What the registry holds, as a page of text for a scraper. Names and tags come from all over the program, tags also from
requests.
-/

namespace NyzRating.Kernel

open Exposition (Sample Line Label)

/-- The characters that end a name, a quoted value or a line, or begin a comment. -/
def isDelimiter (c : Char) : Bool := ['{', ' ', '=', '\n', '#', '\\', '"'].contains c

def Plain (text : List Char) : Prop := ∀ c ∈ text, isDelimiter c = false

namespace Plain

variable {text : List Char}

theorem of_all (h : text.all (fun c => !isDelimiter c) = true) : Plain text := fun c mem => by
  simpa using List.all_eq_true.mp h c mem

theorem ne {c d : Char} (h : Plain text) (delimiter : isDelimiter d = true) (mem : c ∈ text) : c ≠ d := by
  rintro rfl
  exact absurd ((h c mem).symm.trans delimiter) Bool.false_ne_true

theorem not_mem {d : Char} (h : Plain text) (delimiter : isDelimiter d = true) : d ∉ text := fun mem => h.ne delimiter mem rfl

theorem append {rest : List Char} (h : Plain text) (h' : Plain rest) : Plain (text ++ rest) := fun c mem =>
  (List.mem_append.mp mem).elim (h c) (h' c)

end Plain

/-- How numbers are formatted, and the tables of characters. -/
structure Rendering (α : Type) where
  isalnum : Char → Bool
  lower : List Char → List Char
  /-- `str` of a float. -/
  str : α → List Char
  /-- `f"{upper:g}"` -/
  general : α → List Char
  alnum : ∀ c, isalnum c = true → isDelimiter c = false
  str_line : ∀ v, '\n' ∉ str v
  general_plain : ∀ v, Plain (general v)

variable {α : Type} (fmt : Rendering α)

/-! ### `prometheus_renderer` -/

namespace Rendering

/-- `_prometheus_name` and `_prometheus_label_name`, up to what stands for an empty name. -/
def normalized (unnamed : String) (name : String) : String :=
  let underscored := (fmt.lower (Text.strip name.toList)).map fun c => if fmt.isalnum c then c else '_'
  let parts := (underscored.splitOn '_').filter (· ≠ [])
  if parts = [] then unnamed else String.ofList (['_'].intercalate parts)

def prometheusName (name : String) : String := fmt.normalized "unnamed" name

def prometheusLabelName (name : String) : String := fmt.normalized "label" name

end Rendering

/-- `text.replace(c, by)` -/
def replaceChar (c : Char) (by' : List Char) (text : List Char) : List Char := text.flatMap fun d => if d = c then by' else [d]

def prometheusLabelValue (value : String) : String :=
  String.ofList (replaceChar '\n' ['\\', 'n'] (replaceChar '"' ['\\', '"'] (replaceChar '\\' ['\\', '\\'] value.toList)))

/-- The labels put one after another, where names that become the same are one label. -/
def putLabels (labels : Dict String String) (tags : Dict String String) : Dict String String :=
  tags.items.foldl (fun labels tag => labels.put (fmt.prometheusLabelName tag.1) (prometheusLabelValue tag.2)) labels

def joinLabels (labels : Dict String String) : List Char :=
  [','].intercalate ((sortedItems labels).map fun label => label.1.toList ++ '=' :: '"' :: (label.2.toList ++ ['"']))

def prometheusLabels (metricName : String) (tags : Dict String String) : List Char :=
  joinLabels (putLabels fmt (Dict.ofItems [("metric", fmt.prometheusName metricName)]) tags)

def prometheusSeriesLabels (tags : Dict String String) : List Char := joinLabels (putLabels fmt Dict.empty tags)

/-- A line with its labels in braces. -/
def labelled (name : String) (labels value : List Char) : List Char := name.toList ++ '{' :: (labels ++ '}' :: ' ' :: value)

section Lines

variable [LinearOrder α] (cfg : MetricSettings α)

/-- `_render_native_histogram_for_series` -/
def renderNativeHistogramForSeries (s : MetricSeries α) : List (List Char) :=
  let base := "nyzrating_" ++ fmt.prometheusName s.name
  let labels := prometheusSeriesLabels fmt s.tags
  let inf := "le=\"+Inf\"".toList
  [("# HELP " ++ base ++ " Histogram for metric '" ++ s.name ++ "'.").toList, ("# TYPE " ++ base ++ " histogram").toList] ++
    (s.histogramBuckets.zip (runningCounts 0 s.histogramBucketCounts)).map (fun (upper, running) =>
      let le := "le=\"".toList ++ (fmt.general upper ++ ['"'])
      labelled (base ++ "_bucket") (if labels ≠ [] then labels ++ ',' :: le else le) (toString running).toList) ++
    if labels ≠ [] then
      [labelled (base ++ "_bucket") (labels ++ ',' :: inf) (toString s.count).toList,
        labelled (base ++ "_count") labels (toString s.count).toList,
        labelled (base ++ "_sum") labels (fmt.str s.sum)]
    else
      [labelled (base ++ "_bucket") inf (toString s.count).toList,
        (base ++ "_count ").toList ++ (toString s.count).toList,
        (base ++ "_sum ").toList ++ fmt.str s.sum]

def aggregateLines (values : String × MetricSnapshot α) : List (List Char) :=
  let labels := prometheusLabels fmt values.1 values.2.tags
  [labelled "nyzrating_metric_count" labels (fmt.str (cfg.ofCount values.2.count)),
    labelled "nyzrating_metric_sum" labels (fmt.str values.2.sum),
    labelled "nyzrating_metric_last" labels (fmt.str values.2.last),
    labelled "nyzrating_metric_p95" labels (fmt.str values.2.p95),
    labelled "nyzrating_metric_p99" labels (fmt.str values.2.p99),
    labelled "nyzrating_metric_max" labels (fmt.str values.2.max)]

def headerLines : List String := [
  "# HELP nyzrating_metric_count Observed metric sample count.",
  "# TYPE nyzrating_metric_count counter",
  "# HELP nyzrating_metric_sum Observed metric sample sum.",
  "# TYPE nyzrating_metric_sum gauge",
  "# HELP nyzrating_metric_last Last observed metric sample.",
  "# TYPE nyzrating_metric_last gauge",
  "# HELP nyzrating_metric_p95 Approximate p95 from local samples.",
  "# TYPE nyzrating_metric_p95 gauge",
  "# HELP nyzrating_metric_p99 Approximate p99 from local samples.",
  "# TYPE nyzrating_metric_p99 gauge"]

variable (p95 p99 : α) (r : MetricRegistry α)

def sortedSnapshot : List (String × MetricSnapshot α) := Ordered.sortedBy Prod.fst (snapshot cfg p95 p99 r)

/-- The series by name and tags. -/
def sortedSeries : List (MetricSeries α) :=
  Ordered.sortedBy (fun s => toLex (s.name, (sortedItems s.tags).map toLex)) (r.items.map Prod.snd)

def renderPrometheusMetricsFromRegistry : List Char :=
  let lines := headerLines.map String.toList ++ (sortedSnapshot cfg p95 p99 r).flatMap (aggregateLines fmt cfg) ++
    (sortedSeries r).flatMap (renderNativeHistogramForSeries fmt)
  ['\n'].intercalate lines ++ ['\n']

end Lines

/-! ### What is on the page -/

/-- The tags as labels, without any escapes. -/
def putTags (labels : Dict String String) (tags : Dict String String) : Dict String String :=
  tags.items.foldl (fun labels tag => labels.put (fmt.prometheusLabelName tag.1) tag.2) labels

def exposedLabels (labels tags : Dict String String) : List Label :=
  (sortedItems (putTags fmt labels tags)).map fun label => (label.1.toList, label.2.toList)

section Samples

def seriesSamples (s : MetricSeries α) : List Sample :=
  let base := "nyzrating_" ++ fmt.prometheusName s.name
  let labels := exposedLabels fmt Dict.empty s.tags
  ((s.histogramBuckets.zip (runningCounts 0 s.histogramBucketCounts)).map fun (upper, running) =>
    Sample.mk (base ++ "_bucket").toList (labels ++ [("le".toList, fmt.general upper)]) (toString running).toList) ++
  [⟨(base ++ "_bucket").toList, labels ++ [("le".toList, "+Inf".toList)], (toString s.count).toList⟩,
    ⟨(base ++ "_count").toList, labels, (toString s.count).toList⟩,
    ⟨(base ++ "_sum").toList, labels, fmt.str s.sum⟩]

variable [LinearOrder α] (cfg : MetricSettings α)

def aggregateSamples (values : String × MetricSnapshot α) : List Sample :=
  let labels := exposedLabels fmt (Dict.ofItems [("metric", fmt.prometheusName values.1)]) values.2.tags
  [⟨"nyzrating_metric_count".toList, labels, fmt.str (cfg.ofCount values.2.count)⟩,
    ⟨"nyzrating_metric_sum".toList, labels, fmt.str values.2.sum⟩,
    ⟨"nyzrating_metric_last".toList, labels, fmt.str values.2.last⟩,
    ⟨"nyzrating_metric_p95".toList, labels, fmt.str values.2.p95⟩,
    ⟨"nyzrating_metric_p99".toList, labels, fmt.str values.2.p99⟩,
    ⟨"nyzrating_metric_max".toList, labels, fmt.str values.2.max⟩]

def exposedSamples (p95 p99 : α) (r : MetricRegistry α) : List Sample :=
  (sortedSnapshot cfg p95 p99 r).flatMap (aggregateSamples fmt cfg) ++ (sortedSeries r).flatMap (seriesSamples fmt)

end Samples

/-! ### Names and labels -/

section Labels

variable {fmt}

theorem replaceChar_eq (c : Char) (by' : List Char) (d : Char) (rest : List Char) :
    replaceChar c by' (d :: rest) = (if d = c then by' else [d]) ++ replaceChar c by' rest := rfl

/-- Three replacements one after another escape a text. -/
theorem prometheusLabelValue_eq (value : String) :
    prometheusLabelValue value = String.ofList (Exposition.escape value.toList) := by
  rw [prometheusLabelValue]
  congr 1
  induction value.toList with
  | nil => rfl
  | cons c text ih =>
    rw [Exposition.escape, List.flatMap_cons, ← Exposition.escape, ← ih, replaceChar_eq, Exposition.escapeChar]
    by_cases backslash : c = '\\'
    · subst backslash
      rfl
    · rw [if_neg backslash, if_neg backslash, List.singleton_append, replaceChar_eq]
      by_cases quote : c = '"'
      · subst quote
        rfl
      · rw [if_neg quote, if_neg quote, List.singleton_append, replaceChar_eq]

def escaped (value : String) : String := String.ofList (Exposition.escape value.toList)

theorem putLabels_mapValues (labels tags : Dict String String) :
    putLabels fmt (labels.mapValues escaped) tags = (putTags fmt labels tags).mapValues escaped := by
  unfold putLabels putTags
  induction tags.items generalizing labels with
  | nil => rfl
  | cons tag items ih =>
    rw [List.foldl_cons, List.foldl_cons, prometheusLabelValue_eq, ← ih, Dict.mapValues_put]
    rfl

theorem sortedItems_mapValues (labels : Dict String String) :
    sortedItems (labels.mapValues escaped) = (sortedItems labels).map fun label => (label.1, escaped label.2) := by
  have sorted := List.map_insertionSort (r := fun x y : String × String => x.1 ≤ y.1)
    (s := fun x y : String × String => x.1 ≤ y.1) (fun item => (item.1, escaped item.2)) labels.items fun _ _ _ _ => Iff.rfl
  exact sorted.symm

theorem joinLabels_mapValues (labels tags : Dict String String) :
    joinLabels ((putTags fmt labels tags).mapValues escaped) = Exposition.writeLabels (exposedLabels fmt labels tags) := by
  rw [joinLabels, sortedItems_mapValues, Exposition.writeLabels, exposedLabels, List.map_map, List.map_map]
  congr 1
  refine List.map_congr_left fun label _ => ?_
  simp [escaped, Exposition.writeLabel]

theorem prometheusSeriesLabels_eq (tags : Dict String String) :
    prometheusSeriesLabels fmt tags = Exposition.writeLabels (exposedLabels fmt Dict.empty tags) := by
  rw [← joinLabels_mapValues, ← putLabels_mapValues]
  rfl

/-- A normalized name has characters that end nothing. -/
theorem normalized_plain {unnamed : String} (plain : Plain unnamed.toList) (name : String) :
    Plain (fmt.normalized unnamed name).toList := by
  unfold Rendering.normalized
  dsimp only
  split
  · exact plain
  · intro c mem
    rw [String.toList_ofList] at mem
    rcases Text.mem_intercalate mem with rfl | ⟨part, mem_part, mem⟩
    · rfl
    · have whole := Text.mem_intercalate_of_mem (b := '_') (List.mem_filter.mp mem_part).1 mem
      rw [List.intercalate_splitOn] at whole
      obtain ⟨d, -, rfl⟩ := List.mem_map.mp whole
      split
      · next alnum => exact fmt.alnum d alnum
      · rfl

theorem prometheusName_plain (name : String) : Plain (fmt.prometheusName name).toList :=
  normalized_plain (.of_all rfl) name

theorem prometheusLabelName_plain (name : String) : Plain (fmt.prometheusLabelName name).toList :=
  normalized_plain (.of_all rfl) name

theorem escape_plain {text : List Char} (plain : Plain text) : Exposition.escape text = text := by
  exact Exposition.escape_of_plain fun c mem => ⟨plain.ne rfl mem, plain.ne rfl mem, plain.ne rfl mem⟩

theorem prometheusLabels_eq (name : String) (tags : Dict String String) :
    prometheusLabels fmt name tags =
      Exposition.writeLabels (exposedLabels fmt (Dict.ofItems [("metric", fmt.prometheusName name)]) tags) := by
  have same : escaped (fmt.prometheusName name) = fmt.prometheusName name := by
    rw [escaped, escape_plain (prometheusName_plain name), String.ofList_toList]
  have start : (Dict.ofItems [("metric", fmt.prometheusName name)]).mapValues escaped =
      Dict.ofItems [("metric", fmt.prometheusName name)] := by
    have put := (Dict.empty : Dict String String).mapValues_put escaped (k := "metric") (a := fmt.prometheusName name)
    rw [same] at put
    exact put
  rw [← joinLabels_mapValues, ← putLabels_mapValues, start]
  rfl

/-- The names of labels are normalized ones, or one that is there at the start. -/
theorem exposedLabels_plain (fmt : Rendering α) (labels : Dict String String) (plain : ∀ k ∈ labels.keys, Plain k.toList)
    (tags : Dict String String) : ∀ label ∈ exposedLabels fmt labels tags, Plain label.1 := by
  have put : ∀ k ∈ (putTags fmt labels tags).keys, Plain k.toList := by
    unfold putTags
    induction tags.items generalizing labels with
    | nil => exact plain
    | cons tag items ih =>
      refine ih _ fun k mem => ?_
      rw [Dict.keys_put] at mem
      split at mem
      · exact plain k mem
      · rcases List.mem_append.mp mem with old | new
        · exact plain k old
        · exact List.mem_singleton.mp new ▸ prometheusLabelName_plain tag.1
  intro label mem
  obtain ⟨item, within, rfl⟩ := List.mem_map.mp mem
  exact put item.1 (List.mem_map_of_mem ((Ordered.sortedBy_perm _ _).subset within))

end Labels

/-! ### What a scraper reads -/

section Read

variable {fmt}

theorem labelled_eq (name : String) {labels : List Label} (nonempty : labels ≠ []) (value : List Char) :
    labelled name (Exposition.writeLabels labels) value = Sample.write ⟨name.toList, labels, value⟩ := by
  simp [labelled, Sample.write, nonempty]

theorem bare_eq (name : String) (value : List Char) :
    (name ++ " ").toList ++ value = Sample.write ⟨name.toList, [], value⟩ := by
  simp [Sample.write]

theorem write_le {value : List Char} (plain : Plain value) :
    Exposition.writeLabel ("le".toList, value) = "le=\"".toList ++ (value ++ ['"']) := by
  rw [Exposition.writeLabel, escape_plain plain]
  rfl

/-- The lines of a bucket, with or without other labels. -/
theorem bucket_eq (base : String) (labels : List Label) {value : List Char} (plain : Plain value)
    (text : List Char) :
    labelled base (if Exposition.writeLabels labels ≠ []
        then Exposition.writeLabels labels ++ ',' :: ("le=\"".toList ++ (value ++ ['"']))
        else "le=\"".toList ++ (value ++ ['"'])) text =
      Sample.write ⟨base.toList, labels ++ [("le".toList, value)], text⟩ := by
  rw [← labelled_eq _ (by simp), ← write_le plain]
  congr 1
  by_cases none_there : labels = []
  · subst none_there
    rw [if_neg (not_not.mpr (Exposition.writeLabels_eq_nil.mpr rfl)), List.nil_append, Exposition.writeLabels_singleton]
  · rw [if_pos fun h => none_there (Exposition.writeLabels_eq_nil.mp h), Exposition.writeLabels_concat _ none_there]

/-- The lines of a series. -/
def seriesLines (fmt : Rendering α) (s : MetricSeries α) : List Line :=
  let base := "nyzrating_" ++ fmt.prometheusName s.name
  [.comment (" HELP " ++ base ++ " Histogram for metric '" ++ s.name ++ "'.").toList,
    .comment (" TYPE " ++ base ++ " histogram").toList] ++ (seriesSamples fmt s).map .sample

theorem renderNativeHistogram_eq (s : MetricSeries α) :
    renderNativeHistogramForSeries fmt s = (seriesLines fmt s).map Line.write := by
  unfold renderNativeHistogramForSeries seriesLines seriesSamples
  rw [prometheusSeriesLabels_eq]
  dsimp only
  generalize exposedLabels fmt Dict.empty s.tags = labels
  generalize "nyzrating_" ++ fmt.prometheusName s.name = base
  have help : ("# HELP " ++ base ++ " Histogram for metric '" ++ s.name ++ "'.").toList =
      Line.write (.comment (" HELP " ++ base ++ " Histogram for metric '" ++ s.name ++ "'.").toList) := by
    simp only [String.toList_append, Line.write]
    rfl
  have type : ("# TYPE " ++ base ++ " histogram").toList = Line.write (.comment (" TYPE " ++ base ++ " histogram").toList) := by
    simp only [String.toList_append, Line.write]
    rfl
  have inf : Plain "+Inf".toList := .of_all rfl
  have last : (if Exposition.writeLabels labels ≠ [] then
        [labelled (base ++ "_bucket") (Exposition.writeLabels labels ++ ',' :: "le=\"+Inf\"".toList) (toString s.count).toList,
          labelled (base ++ "_count") (Exposition.writeLabels labels) (toString s.count).toList,
          labelled (base ++ "_sum") (Exposition.writeLabels labels) (fmt.str s.sum)]
      else
        [labelled (base ++ "_bucket") "le=\"+Inf\"".toList (toString s.count).toList,
          (base ++ "_count ").toList ++ (toString s.count).toList,
          (base ++ "_sum ").toList ++ fmt.str s.sum]) =
      [Sample.write ⟨(base ++ "_bucket").toList, labels ++ [("le".toList, "+Inf".toList)], (toString s.count).toList⟩,
        Sample.write ⟨(base ++ "_count").toList, labels, (toString s.count).toList⟩,
        Sample.write ⟨(base ++ "_sum").toList, labels, fmt.str s.sum⟩] := by
    rw [← bucket_eq (base ++ "_bucket") labels inf]
    by_cases bare : labels = []
    · subst bare
      have nothing : ¬Exposition.writeLabels [] ≠ [] := not_not.mpr (Exposition.writeLabels_eq_nil.mpr rfl)
      have count : base ++ "_count " = base ++ "_count" ++ " " := by rw [String.append_assoc]; rfl
      have sum : base ++ "_sum " = base ++ "_sum" ++ " " := by rw [String.append_assoc]; rfl
      rw [if_neg nothing, if_neg nothing, count, sum, bare_eq, bare_eq]
      rfl
    · have some_there : Exposition.writeLabels labels ≠ [] := fun h => bare (Exposition.writeLabels_eq_nil.mp h)
      rw [if_pos some_there, if_pos some_there, labelled_eq _ bare, labelled_eq _ bare]
      rfl
  rw [help, type, last]
  simp only [bucket_eq _ labels (fmt.general_plain _), List.map_append, List.map_map]
  rfl

variable [LinearOrder α] {cfg : MetricSettings α} {p95 p99 : α} {r : MetricRegistry α}

/-- The lines of the page. -/
def pageLines (fmt : Rendering α) (cfg : MetricSettings α) (p95 p99 : α) (r : MetricRegistry α) : List Line :=
  headerLines.map (fun line => .comment line.toList.tail) ++
    (sortedSnapshot cfg p95 p99 r).flatMap (fun values => (aggregateSamples fmt cfg values).map .sample) ++
    (sortedSeries r).flatMap (seriesLines fmt)

omit [LinearOrder α] in
theorem exposedLabels_ne_nil (fmt : Rendering α) (name : String) (tags : Dict String String) :
    exposedLabels fmt (Dict.ofItems [("metric", name)]) tags ≠ [] := by
  have grows : ∀ (items : List (String × String)) (labels : Dict String String), "metric" ∈ labels.keys →
      "metric" ∈ (items.foldl (fun labels tag => labels.put (fmt.prometheusLabelName tag.1) tag.2) labels).keys := by
    intro items
    induction items with
    | nil => exact fun _ mem => mem
    | cons tag items ih =>
      intro labels mem
      refine ih _ ?_
      rw [Dict.keys_put]
      split
      · exact mem
      · exact List.mem_append_left _ mem
  have there := grows tags.items (Dict.ofItems [("metric", name)]) (List.mem_singleton_self _)
  intro nothing
  obtain ⟨item, mem, -⟩ := List.mem_map.mp there
  have sorted : item ∈ sortedItems (putTags fmt (Dict.ofItems [("metric", name)]) tags) :=
    (Ordered.sortedBy_perm Prod.fst _).symm.subset mem
  rw [List.map_eq_nil_iff.mp nothing] at sorted
  exact List.not_mem_nil sorted

theorem renderPrometheusMetrics_eq :
    renderPrometheusMetricsFromRegistry fmt cfg p95 p99 r = Exposition.write (pageLines fmt cfg p95 p99 r) := by
  have header : headerLines.map String.toList = (headerLines.map fun line => Line.comment line.toList.tail).map Line.write := rfl
  have aggregates : aggregateLines fmt cfg = fun values =>
      ((aggregateSamples fmt cfg values).map Line.sample).map Line.write := by
    funext values
    have labels := exposedLabels_ne_nil fmt (fmt.prometheusName values.1) values.2.tags
    rw [aggregateLines, prometheusLabels_eq]
    simp only [labelled_eq _ labels]
    rfl
  rw [← Exposition.intercalate_write (by simp [pageLines, headerLines]), renderPrometheusMetricsFromRegistry, pageLines, header,
    List.map_append, List.map_append, List.map_flatMap, List.map_flatMap, aggregates, funext renderNativeHistogram_eq]

theorem filterMap_sample (samples : List Sample) : (samples.map Line.sample).filterMap Line.sample? = samples := by
  rw [List.filterMap_map]
  exact List.filterMap_some

theorem samples_pageLines : (pageLines fmt cfg p95 p99 r).filterMap Line.sample? = exposedSamples fmt cfg p95 p99 r := by
  have series (s : MetricSeries α) : (seriesLines fmt s).filterMap Line.sample? = seriesSamples fmt s := by
    rw [seriesLines, List.filterMap_append, filterMap_sample]
    rfl
  rw [pageLines, List.filterMap_append, List.filterMap_append, List.filterMap_flatMap, List.filterMap_flatMap]
  simp only [series, filterMap_sample]
  rfl

/-! ### The lines are proper -/

theorem proper_sample {name : String} {labels : List Label} {value : List Char}
    (named : Plain name.toList) (nonempty : name.toList ≠ [])
    (plain : ∀ label ∈ labels, Plain label.1) (line : '\n' ∉ value) : (Sample.mk name.toList labels value).Proper where
  nonempty := nonempty
  comment begins := named.not_mem rfl (List.mem_of_head? begins)
  name c mem := by
    have brace : c ≠ '{' := named.ne rfl mem
    have blank : c ≠ ' ' := named.ne rfl mem
    exact ⟨by simp [Exposition.inName, brace, blank], named.ne rfl mem⟩
  labels label mem c within := ⟨(plain label mem).ne rfl within, (plain label mem).ne rfl within⟩
  value := line

theorem isDelimiter_of_isDigit {c : Char} (digit : c.isDigit = true) : isDelimiter c = false := by
  have other : ∀ d ∈ ['{', ' ', '=', '\n', '#', '\\', '"'], d.isDigit = false := by simp
  rw [← Bool.not_eq_true]
  intro delimiter
  rw [other c (List.contains_iff_mem.mp delimiter)] at digit
  cases digit

theorem toString_plain (n : Nat) : Plain (toString n).toList := by
  have digits : (toString n).toList = Nat.toDigits 10 n := String.toList_ofList
  rw [digits]
  exact fun c mem => isDelimiter_of_isDigit (Nat.isDigit_of_mem_toDigits (by decide) (by decide) mem)

omit [LinearOrder α] in
theorem proper_seriesSamples (s : MetricSeries α) : ∀ sample ∈ seriesSamples fmt s, sample.Proper := by
  have base (rest : String) (plain : Plain rest.toList) : Plain ("nyzrating_" ++ fmt.prometheusName s.name ++ rest).toList := by
    have first : Plain "nyzrating_".toList := .of_all rfl
    rw [String.toList_append, String.toList_append]
    exact (first.append (prometheusName_plain s.name)).append plain
  have nonempty (rest : String) : ("nyzrating_" ++ fmt.prometheusName s.name ++ rest).toList ≠ [] := by simp
  have labels := exposedLabels_plain fmt Dict.empty (fun k mem => absurd mem List.not_mem_nil) s.tags
  have withLe (value : List Char) :
      ∀ label ∈ exposedLabels fmt Dict.empty s.tags ++ [("le".toList, value)], Plain label.1 := by
    intro label mem
    rcases List.mem_append.mp mem with old | le
    · exact labels label old
    · have plain : Plain "le".toList := .of_all rfl
      exact List.mem_singleton.mp le ▸ plain
  intro sample mem
  rcases List.mem_append.mp mem with bucket | last
  · obtain ⟨⟨upper, running⟩, -, rfl⟩ := List.mem_map.mp bucket
    exact proper_sample (base "_bucket" (.of_all rfl)) (nonempty _) (withLe _) ((toString_plain running).not_mem rfl)
  · simp only [List.mem_cons, List.not_mem_nil, or_false] at last
    rcases last with rfl | rfl | rfl
    · exact proper_sample (base "_bucket" (.of_all rfl)) (nonempty _) (withLe _) ((toString_plain s.count).not_mem rfl)
    · exact proper_sample (base "_count" (.of_all rfl)) (nonempty _) labels ((toString_plain s.count).not_mem rfl)
    · exact proper_sample (base "_sum" (.of_all rfl)) (nonempty _) labels (fmt.str_line s.sum)

omit [LinearOrder α] in
theorem proper_aggregateSamples (values : String × MetricSnapshot α) :
    ∀ sample ∈ aggregateSamples fmt cfg values, sample.Proper := by
  have metric : Plain "metric".toList := .of_all rfl
  have labels := exposedLabels_plain fmt (Dict.ofItems [("metric", fmt.prometheusName values.1)])
    (fun k mem => List.mem_singleton.mp mem ▸ metric) values.2.tags
  intro sample mem
  simp only [aggregateSamples, List.mem_cons, List.not_mem_nil, or_false] at mem
  rcases mem with rfl | rfl | rfl | rfl | rfl | rfl
  all_goals exact proper_sample (.of_all rfl) (by simp) labels (fmt.str_line _)

theorem proper_pageLines (plain : ∀ item ∈ r.items, '\n' ∉ item.2.name.toList) :
    ∀ line ∈ pageLines fmt cfg p95 p99 r, line.Proper := by
  intro line mem
  rcases List.mem_append.mp mem with front | series
  · rcases List.mem_append.mp front with header | aggregate
    · obtain ⟨text, listed, rfl⟩ := List.mem_map.mp header
      have free : ∀ text ∈ headerLines, '\n' ∉ text.toList.tail := by decide
      exact free text listed
    · obtain ⟨values, -, lines⟩ := List.mem_flatMap.mp aggregate
      obtain ⟨sample, among, rfl⟩ := List.mem_map.mp lines
      exact proper_aggregateSamples values sample among
  · obtain ⟨s, sorted, lines⟩ := List.mem_flatMap.mp series
    obtain ⟨item, within, rfl⟩ := List.mem_map.mp ((Ordered.sortedBy_perm _ _).subset sorted)
    have name : '\n' ∉ item.2.name.toList := plain item within
    have normal : '\n' ∉ (fmt.prometheusName item.2.name).toList := (prometheusName_plain item.2.name).not_mem rfl
    rcases List.mem_append.mp lines with comment | samples
    · simp only [List.mem_cons, List.not_mem_nil, or_false] at comment
      rcases comment with rfl | rfl
      all_goals simp [Line.Proper, String.toList_append, name, normal]
    · obtain ⟨sample, among, rfl⟩ := List.mem_map.mp samples
      exact proper_seriesSamples item.2 sample among

/-- Whoever reads the page gets just the samples of the registry. Whatever a tag says is in the value of its label again, and
    makes no label and no line. -/
theorem read_renderPrometheusMetrics (plain : ∀ item ∈ r.items, '\n' ∉ item.2.name.toList) :
    Exposition.read (renderPrometheusMetricsFromRegistry fmt cfg p95 p99 r) = some (exposedSamples fmt cfg p95 p99 r) := by
  rw [renderPrometheusMetrics_eq, Exposition.read_write (proper_pageLines plain), samples_pageLines]

end Read

def wholeTexts : Rendering Nat where
  isalnum := Char.isAlphanum
  lower := Text.lower
  str n := (toString n).toList ++ ['.', '0']
  general n := (toString n).toList
  alnum c alnum := by
    have other : ∀ d ∈ ['{', ' ', '=', '\n', '#', '\\', '"'], d.isAlphanum = false := by simp
    rw [← Bool.not_eq_true]
    intro delimiter
    rw [other c (List.contains_iff_mem.mp delimiter)] at alnum
    cases alnum
  str_line n := by
    have digits := (toString_plain n).not_mem (d := '\n') rfl
    simpa using digits
  general_plain n := toString_plain n

/-- A tag of a request that looks like the end of its line. -/
theorem read_renderPrometheusMetrics_forged :
    let r := registry wholeNumbers [{ name := "http.requests", value := 1, tags := [("path", "\"\x7d 1\nforged 1")] }]
    Exposition.read (renderPrometheusMetricsFromRegistry wholeTexts wholeNumbers 0 1 r) =
      some (exposedSamples wholeTexts wholeNumbers 0 1 r) :=
  read_renderPrometheusMetrics (by decide)

end NyzRating.Kernel
