import AgentLabs.Math.Index
import AgentLabs.Math.Rounding
import AgentLabs.Text.JsonPrefix
import Mathlib.Data.List.Dedup
import Mathlib.Data.List.Sort

/-!
# Two runs of a comparison, row by row

A comparison runs every case with every chunking and every retriever, a number of times, and
keeps a row of each. An analysis takes two such runs and pairs each row of the candidate with the
row of the baseline that has its case and its repeat. The rows of the baseline are looked up in a
dictionary, in which of several rows with one key only the last is left.

So with two chunkings or two retrievers one row of the baseline is paired with several rows of
the candidate and the others are dropped, and rows of repeats that only the baseline has are
dropped as well. And the rows are read line by line from a file, in which some of the characters
that end a line are left as they are, so that a row which has one of them is not read at all. The
rows are paired one by one, and as well when the two runs are exchanged, exactly when no row has
such a character, each run has one chunking and one retriever, both have the same number of repeats
and no two cases have one id.

## Main definitions

* `compare`: `09_compare.py`, the rows it writes
* `loadRun`: `load_run`, the rows as they are read again
* `analyze`: `13_mini_pjt.py`, the pairs of the rows of two runs and their scores
* `OneToOne`: each row is in one pair, with a row of its variant, and each pair in the report
* `PairLaw`: what the analysis of two runs is to keep

## Main results

* `partners_perm_iff`: when each row of the baseline is in one pair
* `pairLaw_iff`: when the analysis keeps the law
-/

namespace AgentLabs.Retrieval

open Math Text

/-! ### The runs -/

/-- A case, with what a search reads of it. -/
structure Case where
  id : String
  type : String
  question : String
  entity : String
  asOf : String
  namespace_ : String
  deriving DecidableEq, Repr

/-- The documents that are expected for a case. -/
structure Gold where
  id : String
  expectedDocs : List String
  deriving DecidableEq, Repr

/-- The files that every run reads. -/
structure Corpus where
  cases : List Case
  gold : List Gold
  deriving DecidableEq, Repr

/-- `{g["id"]: g for g in …}`. -/
def Corpus.golds (corpus : Corpus) : Dict String Gold := Dict.index Gold.id corpus.gold

/-- The conditions of a run. -/
structure Config where
  chunkings : List String := ["bounded", "fixed"]
  retrievers : List String := ["bm25"]
  caseTypes : List String :=
    ["simple", "versioned", "table", "procedural", "cross", "single", "unknown", "scope-trap"]
  repeats : ℕ := 1
  k : ℕ := 6
  live : Bool := false
  server : Bool := false
  deriving DecidableEq, Repr

/-- A row of a run. -/
structure Row where
  caseId : String
  type : String
  rep : ℕ
  chunking : String
  retriever : String
  status : String := "ok"
  retrieved : List String := []
  error : Option String := none
  deriving DecidableEq, Repr

/-- A run, as its files have it, with digests of the files that it has read. -/
structure ComparisonRun (π : Type) where
  runId : String
  config : Config
  provenance : π
  rows : List Row

/-- A row, as a line of its file has it. -/
def Row.toJson (row : Row) : Json :=
  .obj ([("case_id", .str row.caseId), ("type", .str row.type), ("repeat", .int row.rep),
    ("chunking", .str row.chunking), ("retriever", .str row.retriever), ("status", .str row.status),
    ("retrieved", .arr (row.retrieved.map .str))] ++
      (row.error.map fun text => ("error", Json.str text)).toList)

/-- A list of texts. -/
def textsOf? : Json → Option (List String)
  | .arr items => items.mapM Json.asStr?
  | _ => none

/-- The row that a line has. -/
def Row.ofJson (line : Json) : Option Row := do
  let fields ← line.asObj?
  let text := fun name => (Dict.get? fields name).bind Json.asStr?
  return {
    caseId := ← text "case_id"
    type := ← text "type"
    rep := (← (Dict.get? fields "repeat").bind Json.asInt?).toNat
    chunking := ← text "chunking"
    retriever := ← text "retriever"
    status := ← text "status"
    retrieved := ← (Dict.get? fields "retrieved").bind textsOf?
    error := text "error" }

/-- `runs.jsonl`, as a run writes it. -/
def ComparisonRun.runsText {π : Type} (run : ComparisonRun π) : String :=
  recordsText (run.rows.map Row.toJson)

/-- The ranking of the documents for a case, or the error of a search. What it gives may differ
from repeat to repeat. -/
abbrev Search := Case → ℕ → String → String → Except String (List String)

/-- The retrievers there are. -/
def knownRetrievers : List String := ["bm25", "dense", "rrf"]

/-- The row of one search. -/
def searchRow (search : Search) (config : Config) (rep : ℕ) (case_ : Case)
    (chunking retriever : String) : Row :=
  let row : Row := { caseId := case_.id, type := case_.type, rep, chunking, retriever }
  if retriever ∈ knownRetrievers then
    match search case_ rep chunking retriever with
    | .ok ranked => { row with retrieved := ranked.take config.k }
    | .error error => { row with status := "error", error := some error }
  else
    { row with status := "error", error := some ("ValueError: 알 수 없는 검색기: " ++ retriever) }

namespace Config

variable (config : Config)

/-- The cases of the types that are chosen. -/
def selected (corpus : Corpus) : List Case :=
  corpus.cases.filter fun case_ => case_.type ∈ config.caseTypes

/-- The rows of a run, in the order of the loops. -/
def rows (corpus : Corpus) (search : Search) : List Row :=
  (List.range config.repeats).flatMap fun i => (config.selected corpus).flatMap fun case_ =>
    config.chunkings.flatMap fun chunking => config.retrievers.map fun retriever =>
      searchRow search config (i + 1) case_ chunking retriever

/-- The conditions that a run is refused for. -/
def refused : Bool :=
  (config.live && decide ("semantic" ∉ config.chunkings)) ||
    (!config.server && config.retrievers.any fun retriever =>
    retriever ∈ ["dense", "rrf", "rerank"])

end Config

section

variable {π : Type} (digest : Corpus → π)

/-- `09_compare.py`. The summary looks up the expected documents of every row, so a run that lacks
some of them writes no summary. -/
def compare (corpus : Corpus) (search : Search) (runId : String) (config : Config) :
    Option (ComparisonRun π) :=
  if config.refused then none
  else if (config.rows corpus search).all fun row => (corpus.golds.get? row.caseId).isSome then
    some { runId, config, provenance := digest corpus, rows := config.rows corpus search }
  else none

end

/-! ### The analysis -/

/-- What may be declared as changed, in the order of the names. -/
inductive Change where
  | chunking
  | implementation
  | k
  | live
  | repeats
  | retriever
  | server
  deriving DecidableEq, Repr

/-- The name of a change. -/
def Change.name : Change → String
  | .chunking => "chunking"
  | .implementation => "implementation"
  | .k => "k"
  | .live => "live"
  | .repeats => "repeats"
  | .retriever => "retriever"
  | .server => "server"

/-- The names of the changes that are declared, sorted. -/
def changedNames (changed : List Change) : List String :=
  ([.chunking, .implementation, .k, .live, .repeats, .retriever, .server].filter (· ∈ changed)).map
    Change.name

/-- The names of the conditions in which two runs differ, sorted. -/
def differing (base cand : Config) : List String :=
  ([("case_types", decide (base.caseTypes ≠ cand.caseTypes)),
    ("chunking", decide (base.chunkings ≠ cand.chunkings)),
    ("k", decide (base.k ≠ cand.k)),
    ("live", decide (base.live ≠ cand.live)),
    ("repeats", decide (base.repeats ≠ cand.repeats)),
    ("retriever", decide (base.retrievers ≠ cand.retrievers)),
    ("server", decide (base.server ≠ cand.server))].filter Prod.snd).map Prod.fst

/-- The differences that are not declared. -/
def undeclared (changed : List Change) (base cand : Config) : List String :=
  (differing base cand).filter (· ∉ changed.map Change.name)

/-- `key(row)`. -/
def Row.key (row : Row) : String × ℕ := (row.caseId, row.rep)

section

variable {β : Type} (keyOf : β → String × ℕ)

/-- The pairs of the rows of the candidate with rows of the baseline. -/
def pairRows (base : List β) (cand : List Row) : List (β × Row) :=
  cand.filterMap fun row => ((Dict.index keyOf base).get? row.key).map fun partner => (partner, row)

/-- The keys of the rows of the candidate that have no partner. -/
def missingKeys (base : List β) (cand : List Row) : List (String × ℕ) :=
  (cand.filter fun row => ((Dict.index keyOf base).get? row.key).isNone).map Row.key

end

/-- An entry of the analysis. There are scores where documents are expected. -/
structure Entry where
  caseId : String
  type : String
  rep : ℕ
  baseline : Option ℚ := none
  candidate : Option ℚ := none
  delta : Option ℚ := none
  deriving DecidableEq, Repr

/-- The part of the expected documents that a row has found. -/
def Gold.score (gold : Gold) (row : Row) : ℚ :=
  ((row.retrieved.filter (· ∈ gold.expectedDocs)).dedup.length : ℚ) / gold.expectedDocs.length

/-- The entry of a pair. -/
def pairEntry (gold : Gold) (base cand : Row) : Entry :=
  let entry : Entry := { caseId := base.caseId, type := base.type, rep := base.rep }
  if gold.expectedDocs = [] then entry
  else
    { entry with
      baseline := some (round4 (gold.score base))
      candidate := some (round4 (gold.score cand))
      delta := some (round4 (gold.score cand - gold.score base)) }

/-- `round(sum(deltas) / len(deltas), 4)`. -/
def meanDelta (deltas : List ℚ) : ℚ := round4 (deltas.sum / deltas.length)

/-- The report of an analysis, with the table of the mean deltas by type. -/
structure Report where
  changed : List String
  declaredAndDiffering : List String
  unchanged : List String
  pairs : ℕ
  scoredPairs : ℕ
  improved : ℕ
  worsened : ℕ
  meanDelta : Option ℚ
  rows : List Entry
  byType : List (String × ℚ × ℕ)
  deriving DecidableEq, Repr

/-- The deltas of the entries that are scored. -/
def deltas (entries : List Entry) : List ℚ := entries.filterMap Entry.delta

/-- The mean delta of each type that has scored entries, sorted by type. -/
def typeTable (entries : List Entry) : List (String × ℚ × ℕ) :=
  let scored := entries.filter fun entry => entry.delta.isSome
  ((scored.map Entry.type).dedup.mergeSort fun a b => decide (a ≤ b)).map fun type =>
    let ofType := deltas (scored.filter fun entry => entry.type = type)
    (type, meanDelta ofType, ofType.length)

/-- The report on the entries of the pairs. -/
def reportOf (changed : List Change) (base cand : Config) (entries : List Entry) : Report where
  changed := changedNames changed
  declaredAndDiffering := differing base cand
  unchanged := (changedNames changed).filter (· ∉ differing base cand)
  pairs := entries.length
  scoredPairs := (deltas entries).length
  improved := (deltas entries).countP (0 < ·)
  worsened := (deltas entries).countP (· < 0)
  meanDelta := if deltas entries = [] then none else some (meanDelta (deltas entries))
  rows := entries
  byType := typeTable entries

/-- How an analysis ends: with a `JSONDecodeError`, refused for a reason, with a `KeyError`, or with
a report. -/
inductive Analysis where
  | decodeError
  | undeclared (names : List String)
  | otherFiles
  | missing (count : ℕ) (first : List (String × ℕ))
  | keyError
  | report (report : Report)
  deriving DecidableEq, Repr

/-- The analysis is refused. -/
def Analysis.refused : Analysis → Bool
  | .undeclared _ | .otherFiles | .missing .. => true
  | .decodeError | .keyError | .report _ => false

/-- The order of keys: by case, then by repeat. -/
def keyLe (a b : String × ℕ) : Bool := decide (a.1 < b.1) || (a.1 == b.1 && decide (a.2 ≤ b.2))

/-- `load_run`: the rows are read again from their file, line by line. The summary is one document
and is what the run has written. -/
def loadRun {π : Type} (run : ComparisonRun π) : Option (ComparisonRun π) :=
  ((readRecords run.runsText).bind fun lines => lines.mapM Row.ofJson).map fun rows =>
    { run with rows }

/-- The analysis of two runs that are loaded. -/
def analyzeRows {π : Type} [DecidableEq π] (golds : Dict String Gold) (changed : List Change)
    (base cand : ComparisonRun π) : Analysis :=
  if undeclared changed base.config cand.config ≠ [] then
    .undeclared (undeclared changed base.config cand.config)
  else if base.provenance ≠ cand.provenance then .otherFiles
  else if missingKeys Row.key base.rows cand.rows ≠ [] then
    .missing (missingKeys Row.key base.rows cand.rows).length
      (((missingKeys Row.key base.rows cand.rows).mergeSort keyLe).take 5)
  else
    match (pairRows Row.key base.rows cand.rows).mapM fun pair =>
        (golds.get? pair.1.caseId).map fun gold => pairEntry gold pair.1 pair.2 with
    | none => .keyError
    | some entries => .report (reportOf changed base.config cand.config entries)

/-- `13_mini_pjt.py`. Both runs are loaded before anything is compared. -/
def analyze {π : Type} [DecidableEq π] (golds : Dict String Gold) (changed : List Change)
    (base cand : ComparisonRun π) : Analysis :=
  match loadRun base, loadRun cand with
  | some base, some cand => analyzeRows golds changed base cand
  | _, _ => .decodeError

/-! ### The law -/

/-- A pair is of one variant, up to what is declared as changed. -/
def SameVariant (changed : List Change) (base cand : Row) : Prop :=
  base.caseId = cand.caseId ∧ base.rep = cand.rep ∧
    (.chunking ∉ changed → base.chunking = cand.chunking) ∧
    (.retriever ∉ changed → base.retriever = cand.retriever)

/-- The pairs of the analysis, the rows of the baseline being known by their places in the file. -/
def placedPairs (base cand : List Row) : List ((Row × ℕ) × Row) :=
  pairRows (fun row => Row.key row.1) base.zipIdx cand

/-- The report is made of pairs that have each row once, the two rows of a pair are of one variant,
and each pair has its entry in the report, in the order of the candidate. -/
structure OneToOne (golds : Dict String Gold) (changed : List Change) (base cand : List Row)
    (report : Report) : Prop where
  partners : ((placedPairs base cand).map Prod.fst).Perm base.zipIdx
  rows : (placedPairs base cand).map Prod.snd = cand
  variants : ∀ pair ∈ placedPairs base cand, SameVariant changed pair.1.1 pair.2
  entries : List.Forall₂ (fun pair entry => ∃ gold, golds.get? pair.1.1.caseId = some gold ∧
    entry = pairEntry gold pair.1.1 pair.2) (placedPairs base cand) report.rows
  pairs : report.pairs = report.rows.length
  improved : report.improved = (deltas report.rows).countP (0 < ·)
  worsened : report.worsened = (deltas report.rows).countP (· < 0)

/-- The entry of a pair when the two runs are exchanged. -/
def Entry.exchange (entry : Entry) : Entry :=
  { entry with
    baseline := entry.candidate
    candidate := entry.baseline
    delta := entry.delta.map (- ·) }

/-- Every delta is negated, of the pairs, of all and of each type, and improved and worsened pairs
are exchanged. -/
structure Exchanged (report report' : Report) : Prop where
  rows : report'.rows = report.rows.map Entry.exchange
  meanDelta : report'.meanDelta = report.meanDelta.map (- ·)
  byType : report'.byType = report.byType.map fun row => (row.1, -row.2.1, row.2.2)
  improved : report'.improved = report.worsened
  worsened : report'.worsened = report.improved

/-- **The law of the analysis.** It is refused, or makes a report of rows that correspond one to
one. It is refused for the exchanged runs when it is refused, and else the report on the exchanged
runs has the negated deltas. -/
structure PairLaw {π : Type} [DecidableEq π] (golds : Dict String Gold) (changed : List Change)
    (base cand : ComparisonRun π) : Prop where
  reports : (analyze golds changed base cand).refused ∨
    ∃ report, analyze golds changed base cand = .report report ∧
      OneToOne golds changed base.rows cand.rows report
  refused : (analyze golds changed cand base).refused ↔ (analyze golds changed base cand).refused
  exchanged : ∀ report, analyze golds changed base cand = .report report →
    ∃ report', analyze golds changed cand base = .report report' ∧ Exchanged report report'

/-- No text of a row has one of the characters that end a line and are written as they are. -/
def ComparisonRun.Unbroken {π : Type} (run : ComparisonRun π) : Prop :=
  ∀ row ∈ run.rows, row.toJson.Unbroken

/-- Each run has one variant, and a case and a repeat tell its rows apart; or there are no rows. -/
def Separable {π : Type} (corpus : Corpus) (base cand : ComparisonRun π) : Prop :=
  base.rows = [] ∧ cand.rows = [] ∨
    base.config.chunkings.length = 1 ∧ base.config.retrievers.length = 1 ∧
      cand.config.chunkings.length = 1 ∧ cand.config.retrievers.length = 1 ∧
      base.config.repeats = cand.config.repeats ∧
      ((base.config.selected corpus).map Case.id).Nodup

/-! ### Loading a run -/

section

variable {π : Type} {run : ComparisonRun π}

theorem textsOf?_map_str (texts : List String) : textsOf? (.arr (texts.map .str)) = some texts := by
  rw [textsOf?]
  induction texts with
  | nil => rfl
  | cons text texts ih =>
    rw [List.map_cons, List.mapM_cons, ih]
    rfl

/-- A row is what its line has. -/
theorem Row.ofJson_toJson (row : Row) : Row.ofJson row.toJson = some row := by
  obtain ⟨caseId, type, rep, chunking, retriever, status, retrieved, error⟩ := row
  cases error <;> simp [Row.ofJson, Row.toJson, Json.asObj?, Dict.get?, textsOf?_map_str,
    Json.asStr?, Json.asInt?]

theorem Row.isPlain_toJson (row : Row) : Json.isPlain row.toJson := by
  have docs : ∀ texts : List String, Json.arePlain (texts.map .str) := fun texts => by
    induction texts with
    | nil => rfl
    | cons text texts ih =>
      rw [List.map_cons, Json.arePlain, ih]
      rfl
  obtain ⟨caseId, type, rep, chunking, retriever, status, retrieved, error⟩ := row
  cases error <;> simp [Row.toJson, Json.isPlain, Json.fieldsArePlain, docs]

/-- A run is loaded as it was written, if no row is cut. -/
theorem loadRun_of_unbroken (unbroken : run.Unbroken) : loadRun run = some run := by
  have read : readRecords run.runsText = some (run.rows.map Row.toJson) := by
    refine (readRecords_recordsText_iff ?_).mpr (List.forall_mem_map.mpr unbroken)
    exact List.forall_mem_map.mpr fun row _ => row.isPlain_toJson
  have rows : (run.rows.map Row.toJson).mapM Row.ofJson = some run.rows := by
    induction run.rows with
    | nil => rfl
    | cons row rows ih =>
      rw [List.map_cons, List.mapM_cons, Row.ofJson_toJson, ih]
      rfl
  rw [loadRun, read, Option.bind_some, rows]
  rfl

/-- A run with a row that is cut is not loaded. -/
theorem loadRun_eq_none (broken : ¬ run.Unbroken) : loadRun run = none := by
  have read : readRecords run.runsText = none := by
    refine readRecords_eq_none ?_ ?_ fun unbroken => broken (List.forall_mem_map.mp unbroken)
    · exact List.forall_mem_map.mpr fun row _ => row.isPlain_toJson
    · exact List.forall_mem_map.mpr fun row _ => ⟨_, rfl⟩
  rw [loadRun, read]
  rfl

end

/-! ### Pairs -/

section

variable {β : Type} {keyOf : β → String × ℕ} {base : List β} {cand : List Row}

theorem missingKeys_eq_nil_iff :
    missingKeys keyOf base cand = [] ↔ ∀ row ∈ cand, row.key ∈ base.map keyOf := by
  rw [missingKeys, List.map_eq_nil_iff, List.filter_eq_nil_iff]
  refine forall₂_congr fun row _ => ?_
  rw [Option.isNone_iff_eq_none, Dict.get?_index_eq_none_iff, not_not]

theorem of_mem_pairRows {pair : β × Row} (h : pair ∈ pairRows keyOf base cand) :
    pair.1 ∈ base ∧ pair.2 ∈ cand ∧ keyOf pair.1 = pair.2.key := by
  obtain ⟨row, listed, found⟩ := List.mem_filterMap.mp h
  obtain ⟨partner, here, rfl⟩ := Option.map_eq_some_iff.mp found
  obtain ⟨member, same⟩ := Dict.of_get?_index here
  exact ⟨member, listed, same⟩

/-- The partners are the rows that are found by the keys of the candidate. -/
theorem map_fst_pairRows : (pairRows keyOf base cand).map Prod.fst =
    (cand.map Row.key).filterMap (Dict.index keyOf base).get? := by
  rw [pairRows, List.map_filterMap, List.filterMap_map]
  refine List.filterMap_congr fun row _ => ?_
  rw [Option.map_map]
  exact Option.map_id'

/-- Every row of the candidate has a partner. -/
theorem map_snd_pairRows (all : missingKeys keyOf base cand = []) :
    (pairRows keyOf base cand).map Prod.snd = cand := by
  rw [missingKeys_eq_nil_iff] at all
  rw [pairRows, List.map_filterMap]
  calc cand.filterMap _ = cand.filterMap some := List.filterMap_congr fun row listed => by
        obtain ⟨partner, here⟩ : ∃ partner, (Dict.index keyOf base).get? row.key = some partner :=
          Option.ne_none_iff_exists'.mp fun none =>
            Dict.get?_index_eq_none_iff.mp none (all row listed)
        rw [here, Option.map_some, Option.map_some]
    _ = cand := List.filterMap_some

end

/-- What the rows are known by does not matter for the pairs. -/
theorem pairRows_zipIdx (base cand : List Row) :
    (pairRows (fun row => Row.key row.1) base.zipIdx cand).map (fun pair => (pair.1.1, pair.2)) =
      pairRows Row.key base cand := by
  have rows : base.zipIdx.map Prod.fst = base := List.zipIdx_map_fst 0 base
  have lookup (k : String × ℕ) : (Dict.index Row.key base).get? k =
      ((Dict.index (fun row => Row.key row.1) base.zipIdx).get? k).map Prod.fst := by
    conv_lhs => rw [← rows]
    exact Dict.get?_index_map Prod.fst Row.key base.zipIdx k
  rw [pairRows, pairRows, List.map_filterMap]
  refine List.filterMap_congr fun row _ => ?_
  rw [lookup, Option.map_map, Option.map_map]
  rfl

/-- **When the pairs are one to one.** Each row of the baseline is in one pair if and only if its
rows have distinct keys and the rows of the candidate have the same ones. -/
theorem partners_perm_iff {base cand : List Row} (all : missingKeys Row.key base cand = []) :
    ((pairRows (fun row => Row.key row.1) base.zipIdx cand).map Prod.fst).Perm base.zipIdx ↔
      (base.map Row.key).Nodup ∧ (cand.map Row.key).Perm (base.map Row.key) := by
  have keys : base.zipIdx.map (fun row => Row.key row.1) = base.map Row.key := by
    rw [← List.zipIdx_map_fst 0 base, List.map_map, List.zipIdx_map_fst]
    rfl
  have found : ∀ k ∈ cand.map Row.key, k ∈ base.zipIdx.map fun row => Row.key row.1 := by
    rw [keys, List.forall_mem_map]
    exact missingKeys_eq_nil_iff.mp all
  have places : base.zipIdx.Nodup := by
    refine List.Nodup.of_map Prod.snd ?_
    rw [List.zipIdx_map_snd]
    exact List.nodup_range'
  rw [map_fst_pairRows, Dict.perm_lookup_iff places found, keys]

/-! ### The rows of a run -/

section

variable (search : Search) (config : Config) (corpus : Corpus) (rep : ℕ) (case_ : Case)
  (chunking retriever : String)

/-- What a row is made for stands in it, whether the search fails or not. -/
theorem searchRow_made_for :
    (searchRow search config rep case_ chunking retriever).key = (case_.id, rep) ∧
      (searchRow search config rep case_ chunking retriever).type = case_.type ∧
      (searchRow search config rep case_ chunking retriever).chunking = chunking ∧
      (searchRow search config rep case_ chunking retriever).retriever = retriever := by
  unfold searchRow
  split_ifs
  · cases search case_ rep chunking retriever <;> exact ⟨rfl, rfl, rfl, rfl⟩
  · exact ⟨rfl, rfl, rfl, rfl⟩

/-- The number of variants of a run. -/
def Config.variants : ℕ := config.chunkings.length * config.retrievers.length

theorem map_key_rows : (config.rows corpus search).map Row.key =
    (List.range config.repeats).flatMap fun i => (config.selected corpus).flatMap fun case_ =>
      List.replicate config.variants (case_.id, i + 1) := by
  rw [Config.rows, List.map_flatMap]
  refine List.flatMap_congr fun i _ => ?_
  rw [List.map_flatMap]
  refine List.flatMap_congr fun case_ _ => ?_
  rw [List.map_flatMap]
  have each (chunking : String) : (config.retrievers.map fun retriever =>
      searchRow search config (i + 1) case_ chunking retriever).map Row.key =
      List.replicate config.retrievers.length (case_.id, i + 1) := by
    rw [List.map_map, ← List.map_const']
    exact List.map_congr_left fun retriever _ => (searchRow_made_for ..).1
  simp only [each, Config.variants]
  induction config.chunkings with
  | nil => simp
  | cons chunking rest ih =>
    rw [List.flatMap_cons, ih, List.replicate_append_replicate, List.length_cons, Nat.succ_mul,
      Nat.add_comm]

variable {search config corpus} in
theorem mem_keys_iff {key : String × ℕ} : key ∈ (config.rows corpus search).map Row.key ↔
    (config.variants ≠ 0 ∧ ∃ case_ ∈ config.selected corpus, case_.id = key.1) ∧
      1 ≤ key.2 ∧ key.2 ≤ config.repeats := by
  obtain ⟨id, rep⟩ := key
  simp only [map_key_rows, List.mem_flatMap, List.mem_range, List.mem_replicate, Prod.mk.injEq]
  constructor
  · rintro ⟨i, inside, case_, listed, some_, rfl, rfl⟩
    exact ⟨⟨some_, case_, listed, rfl⟩, Nat.le_add_left 1 i, inside⟩
  · rintro ⟨⟨some_, case_, listed, rfl⟩, first, last⟩
    exact ⟨rep - 1, by omega, case_, listed, some_, rfl, by omega⟩

theorem length_rows : (config.rows corpus search).length =
    config.repeats * ((config.selected corpus).length * config.variants) := by
  rw [← List.length_map Row.key, map_key_rows]
  simp [List.length_flatMap]

theorem rows_ne_nil_iff : config.rows corpus search ≠ [] ↔
    config.repeats ≠ 0 ∧ (config.selected corpus).length ≠ 0 ∧ config.variants ≠ 0 := by
  rw [← List.length_pos_iff, length_rows, Nat.pos_iff_ne_zero, Nat.mul_ne_zero_iff,
    Nat.mul_ne_zero_iff]

/-- The rows of one variant. -/
theorem rows_of_one {x u : String} (oneChunking : config.chunkings = [x])
    (oneRetriever : config.retrievers = [u]) : config.rows corpus search =
      ((List.range config.repeats).flatMap fun i => (config.selected corpus).map (i + 1, ·)).map
        fun place => searchRow search config place.1 place.2 x u := by
  rw [Config.rows, List.map_flatMap]
  refine List.flatMap_congr fun i _ => ?_
  rw [oneChunking, oneRetriever, List.map_map]
  simp [Function.comp_def, ← List.map_eq_flatMap]

end

/-- Rows with distinct keys are of one variant, of cases with distinct ids. -/
theorem one_of_nodup {config : Config} {corpus : Corpus} {search : Search}
    (some_ : config.rows corpus search ≠ [])
    (distinct : ((config.rows corpus search).map Row.key).Nodup) :
    config.variants = 1 ∧ ((config.selected corpus).map Case.id).Nodup := by
  obtain ⟨repeats, selected, variants⟩ := (rows_ne_nil_iff ..).mp some_
  rw [map_key_rows, List.nodup_flatMap] at distinct
  have first := distinct.1 0 (List.mem_range.mpr (Nat.pos_of_ne_zero repeats))
  have one : config.variants = 1 := by
    obtain ⟨case_, listed⟩ := List.exists_mem_of_length_pos (Nat.pos_of_ne_zero selected)
    have replicated := (List.nodup_flatMap.mp first).1 case_ listed
    rw [List.nodup_replicate] at replicated
    omega
  refine ⟨one, ?_⟩
  rw [one] at first
  simp only [List.replicate_one, ← List.map_eq_flatMap] at first
  refine List.Nodup.of_map (fun id => (id, 0 + 1)) ?_
  rwa [List.map_map]

/-- Cases with distinct ids have distinct keys in the rows of one variant. -/
theorem nodup_keys {config : Config} {corpus : Corpus} {search : Search}
    (one : config.variants = 1) (distinct : ((config.selected corpus).map Case.id).Nodup) :
    ((config.rows corpus search).map Row.key).Nodup := by
  rw [map_key_rows, one]
  simp only [List.replicate_one, ← List.map_eq_flatMap]
  refine List.nodup_flatMap.mpr ⟨fun i _ => ?_, ?_⟩
  · have pairs := distinct.map (f := fun id => (id, i + 1)) fun a b same => congrArg Prod.fst same
    rwa [List.map_map] at pairs
  · refine List.nodup_range.imp fun apart => ?_
    intro key listed listed'
    obtain ⟨_, -, rfl⟩ := List.mem_map.mp listed
    obtain ⟨_, -, same⟩ := List.mem_map.mp listed'
    exact apart (by simpa using (congrArg Prod.snd same).symm)

/-! ### Analyses -/

section

variable {π : Type} [DecidableEq π] {golds : Dict String Gold} {changed : List Change}
  {base cand : ComparisonRun π}

theorem differing_comm (a b : Config) : differing a b = differing b a := by
  simp only [differing, ne_comm]

theorem undeclared_comm (changed : List Change) (a b : Config) :
    undeclared changed a b = undeclared changed b a := by
  rw [undeclared, differing_comm, undeclared]

/-- What is not declared as changed is the same in both runs. -/
theorem same_of_declared {a b : Config} (declared : undeclared changed a b = []) :
    a.caseTypes = b.caseTypes ∧ (.chunking ∉ changed → a.chunkings = b.chunkings) ∧
      (.retriever ∉ changed → a.retrievers = b.retrievers) := by
  have names {name : String} (differs : name ∈ differing a b) :
      ∃ change ∈ changed, change.name = name := by
    have inside := List.filter_eq_nil_iff.mp declared name differs
    simpa using inside
  refine ⟨?_, fun same => ?_, fun same => ?_⟩
  · by_contra differ
    obtain ⟨change, -, isName⟩ := @names "case_types" (by simp [differing, differ])
    cases change <;> exact absurd isName (by decide)
  · by_contra differ
    obtain ⟨change, listed, isName⟩ := @names "chunking" (by simp [differing, differ])
    cases change <;> first | exact same listed | exact absurd isName (by decide)
  · by_contra differ
    obtain ⟨change, listed, isName⟩ := @names "retriever" (by simp [differing, differ])
    cases change <;> first | exact same listed | exact absurd isName (by decide)

theorem mapM_eq_some_map {α β : Type} {f : α → Option β} {g : α → β} {items : List α}
    (each : ∀ item ∈ items, f item = some (g item)) : items.mapM f = some (items.map g) := by
  induction items with
  | nil => rfl
  | cons item rest ih =>
    rw [List.mapM_cons, each item (.head _), ih fun item later => each item (.tail _ later)]
    rfl

/-- The entry of a pair by the expected documents of its case. -/
def entryOf (golds : Dict String Gold) (pair : Row × Row) : Entry :=
  pairEntry ((golds.get? pair.1.caseId).getD ⟨"", []⟩) pair.1 pair.2

theorem analyze_of_unbroken (whole : base.Unbroken) (whole' : cand.Unbroken) :
    analyze golds changed base cand = analyzeRows golds changed base cand := by
  rw [analyze, loadRun_of_unbroken whole, loadRun_of_unbroken whole']

/-- A run that is not loaded is neither refused nor reported on. -/
theorem analyze_of_broken (broken : ¬ (base.Unbroken ∧ cand.Unbroken)) :
    analyze golds changed base cand = .decodeError := by
  unfold analyze
  by_cases whole : base.Unbroken
  · rw [loadRun_eq_none fun whole' => broken ⟨whole, whole'⟩]
    cases loadRun base <;> rfl
  · rw [loadRun_eq_none whole]

/-- With the same files and only declared differences, an analysis is refused for missing rows
only. -/
theorem analyze_of_missing (whole : base.Unbroken) (whole' : cand.Unbroken)
    (declared : undeclared changed base.config cand.config = [])
    (sameFiles : base.provenance = cand.provenance)
    (missing : missingKeys Row.key base.rows cand.rows ≠ []) :
    (analyze golds changed base cand).refused := by
  rw [analyze_of_unbroken whole whole', analyzeRows, if_neg (not_not.mpr declared),
    if_neg (not_not.mpr sameFiles), if_pos missing]
  rfl

@[inherit_doc analyze_of_missing]
theorem analyze_of_all (whole : base.Unbroken) (whole' : cand.Unbroken)
    (declared : undeclared changed base.config cand.config = [])
    (sameFiles : base.provenance = cand.provenance)
    (known : ∀ row ∈ base.rows, (golds.get? row.caseId).isSome)
    (all : missingKeys Row.key base.rows cand.rows = []) :
    analyze golds changed base cand = .report (reportOf changed base.config cand.config
      ((pairRows Row.key base.rows cand.rows).map (entryOf golds))) := by
  rw [analyze_of_unbroken whole whole', analyzeRows, if_neg (not_not.mpr declared),
    if_neg (not_not.mpr sameFiles), if_neg (not_not.mpr all), mapM_eq_some_map (g := entryOf golds)]
  intro pair listed
  obtain ⟨gold, here⟩ := Option.isSome_iff_exists.mp (known pair.1 (of_mem_pairRows listed).1)
  rw [here, Option.map_some, entryOf, here, Option.getD_some]

end

/-- The report on rows with the same distinct keys corresponds to them one to one. -/
theorem oneToOne_reportOf {golds : Dict String Gold} {base cand : List Row} (changed : List Change)
    (config config' : Config) (known : ∀ row ∈ base, (golds.get? row.caseId).isSome)
    (all : missingKeys Row.key base cand = []) (distinct : (base.map Row.key).Nodup)
    (keys : cand.map Row.key = base.map Row.key)
    (variants : ∀ pair ∈ pairRows Row.key base cand, SameVariant changed pair.1 pair.2) :
    OneToOne golds changed base cand (reportOf changed config config'
      ((pairRows Row.key base cand).map (entryOf golds))) where
  partners := (partners_perm_iff all).mpr ⟨distinct, keys ▸ List.Perm.refl _⟩
  rows := by
    have snd := map_snd_pairRows all
    rw [← pairRows_zipIdx, List.map_map] at snd
    exact snd
  variants := by
    rw [← pairRows_zipIdx, List.forall_mem_map] at variants
    exact variants
  entries := by
    rw [reportOf, ← pairRows_zipIdx, List.map_map, List.forall₂_map_right_iff]
    refine List.forall₂_same.mpr fun pair listed => ?_
    -- The baseline row of a pair is one of the rows whose case is known.
    have here := known pair.1.1 (List.fst_mem_of_mem_zipIdx (of_mem_pairRows listed).1)
    obtain ⟨gold, found⟩ := Option.isSome_iff_exists.mp here
    exact ⟨gold, found, by rw [Function.comp_apply, entryOf, found, Option.getD_some]⟩
  pairs := rfl
  improved := rfl
  worsened := rfl

/-! ### Exchanging the runs -/

theorem pairEntry_exchange (gold : Gold) {a b : Row} (sameCase : a.caseId = b.caseId)
    (sameType : a.type = b.type) (sameRep : a.rep = b.rep) :
    pairEntry gold b a = (pairEntry gold a b).exchange := by
  have mirrored : round4 (gold.score a - gold.score b) = -round4 (gold.score b - gold.score a) := by
    rw [← round4_neg, neg_sub]
  unfold pairEntry Entry.exchange
  rw [sameCase, sameType, sameRep, mirrored]
  split_ifs <;> rfl

theorem deltas_exchange (entries : List Entry) :
    deltas (entries.map Entry.exchange) = (deltas entries).map (- ·) := by
  rw [deltas, deltas, List.filterMap_map, List.map_filterMap]
  rfl

theorem meanDelta_neg (ds : List ℚ) : meanDelta (ds.map (- ·)) = -meanDelta ds := by
  have total : (ds.map (- ·)).sum = -ds.sum := by
    induction ds with
    | nil => simp
    | cons d ds ih => rw [List.map_cons, List.sum_cons, List.sum_cons, ih, neg_add]
  rw [meanDelta, meanDelta, ← round4_neg, total, List.length_map, neg_div]

/-- The table of the types has the negated means. -/
theorem typeTable_exchange (entries : List Entry) :
    typeTable (entries.map Entry.exchange) =
      (typeTable entries).map fun row => (row.1, -row.2.1, row.2.2) := by
  have scored : (entries.map Entry.exchange).filter (fun entry => entry.delta.isSome) =
      (entries.filter fun entry => entry.delta.isSome).map Entry.exchange := by
    rw [List.filter_map]
    refine congrArg _ (List.filter_congr fun entry _ => ?_)
    rw [Function.comp_apply, Entry.exchange, Option.isSome_map]
  have types : ∀ entries : List Entry, (entries.map Entry.exchange).map Entry.type =
      entries.map Entry.type := fun entries => by
    rw [List.map_map]
    rfl
  have ofType : ∀ (entries : List Entry) type,
      (entries.map Entry.exchange).filter (fun entry => entry.type = type) =
        (entries.filter fun entry => entry.type = type).map Entry.exchange := fun entries type => by
    rw [List.filter_map]
    rfl
  simp only [typeTable, scored, types, ofType, deltas_exchange, List.map_map, meanDelta_neg,
    List.length_map, Function.comp_def]

theorem exchanged_reportOf (changed : List Change) (base cand : Config) (entries : List Entry) :
    Exchanged (reportOf changed base cand entries)
      (reportOf changed cand base (entries.map Entry.exchange)) where
  rows := rfl
  meanDelta := by
    simp only [reportOf, deltas_exchange, List.map_eq_nil_iff, meanDelta_neg]
    split_ifs <;> rfl
  byType := typeTable_exchange entries
  improved := by
    simp only [reportOf, deltas_exchange, List.countP_map]
    exact List.countP_congr fun delta _ => by simp
  worsened := by
    simp only [reportOf, deltas_exchange, List.countP_map]
    exact List.countP_congr fun delta _ => by simp

section

variable {ι : Type} {places : List ι} {f g : ι → Row}

/-- Rows that are made for the same places are paired place by place. -/
theorem pairRows_map (same : ∀ place ∈ places, (g place).key = (f place).key)
    (distinct : ((places.map f).map Row.key).Nodup) :
    pairRows Row.key (places.map f) (places.map g) = places.map fun place =>
      (f place, g place) := by
  rw [pairRows, List.filterMap_map]
  calc places.filterMap _ = places.filterMap (some ∘ fun place => (f place, g place)) :=
        List.filterMap_congr fun place listed => by
          have here := Dict.get?_index_key distinct (List.mem_map_of_mem listed)
          rw [Function.comp_apply, same place listed, here, Option.map_some, Function.comp_apply]
    _ = places.map fun place => (f place, g place) := by rw [List.filterMap_eq_map]

theorem missingKeys_map (same : ∀ place ∈ places, (g place).key = (f place).key) :
    missingKeys Row.key (places.map f) (places.map g) = [] := by
  rw [missingKeys_eq_nil_iff, List.forall_mem_map]
  intro place listed
  rw [same place listed]
  exact List.mem_map_of_mem (List.mem_map_of_mem listed)

variable {π : Type} [DecidableEq π] {golds : Dict String Gold} {changed : List Change}
  {base cand : ComparisonRun π}

/-- **Runs that are made for the same places**, each of one variant and with distinct keys, are
paired one to one, and in the same way when they are exchanged. -/
theorem pairLaw_of_places (whole : base.Unbroken) (whole' : cand.Unbroken)
    (declared : undeclared changed base.config cand.config = [])
    (sameFiles : base.provenance = cand.provenance)
    (known : ∀ row ∈ base.rows, (golds.get? row.caseId).isSome)
    (baseRows : base.rows = places.map f) (candRows : cand.rows = places.map g)
    (variant : ∀ place ∈ places, SameVariant changed (f place) (g place) ∧ (f place).type =
      (g place).type)
    (distinct : (base.rows.map Row.key).Nodup) : PairLaw golds changed base cand := by
  have same : ∀ place ∈ places, (g place).key = (f place).key := fun place listed =>
    Prod.ext (variant place listed).1.1.symm (variant place listed).1.2.1.symm
  have keys : cand.rows.map Row.key = base.rows.map Row.key := by
    rw [baseRows, candRows, List.map_map, List.map_map]
    exact List.map_congr_left same
  have all : missingKeys Row.key base.rows cand.rows = [] := by
    rw [baseRows, candRows]
    exact missingKeys_map same
  -- In both directions no key is missing, and the pairs are made place by place.
  have all' : missingKeys Row.key cand.rows base.rows = [] := by
    rw [baseRows, candRows]
    exact missingKeys_map fun place listed => (same place listed).symm
  have pairs : pairRows Row.key base.rows cand.rows = places.map fun place =>
      (f place, g place) := by
    rw [baseRows] at distinct
    rw [baseRows, candRows]
    exact pairRows_map same distinct
  have pairs' : pairRows Row.key cand.rows base.rows = places.map fun place =>
      (g place, f place) := by
    rw [← keys, candRows] at distinct
    rw [baseRows, candRows]
    exact pairRows_map (fun place listed => (same place listed).symm) distinct
  have known' : ∀ row ∈ cand.rows, (golds.get? row.caseId).isSome := by
    rw [candRows, List.forall_mem_map]
    intro place listed
    rw [← (variant place listed).1.1]
    exact known _ (baseRows ▸ List.mem_map_of_mem listed)
  have forth : analyze golds changed base cand = _ :=
    analyze_of_all whole whole' declared sameFiles known all
  have back : analyze golds changed cand base = _ :=
    analyze_of_all whole' whole (undeclared_comm changed _ _ ▸ declared) sameFiles.symm known' all'
  have entries : (pairRows Row.key cand.rows base.rows).map (entryOf golds) =
      ((pairRows Row.key base.rows cand.rows).map (entryOf golds)).map Entry.exchange := by
    rw [pairs, pairs', List.map_map, List.map_map, List.map_map]
    refine List.map_congr_left fun place listed => ?_
    obtain ⟨⟨sameCase, sameRep, -⟩, sameType⟩ := variant place listed
    rw [Function.comp_apply, Function.comp_apply, Function.comp_apply, entryOf, entryOf, ← sameCase]
    exact pairEntry_exchange _ sameCase sameType sameRep
  refine ⟨.inr ⟨_, forth, ?_⟩, ?_, fun report made => ?_⟩
  · refine oneToOne_reportOf changed base.config cand.config known all distinct keys ?_
    rw [pairs, List.forall_mem_map]
    exact fun place there => (variant place there).1
  · rw [forth, back]
    rfl
  · rw [forth] at made
    obtain rfl := Analysis.report.inj made
    rw [entries] at back
    exact ⟨_, back, exchanged_reportOf changed base.config cand.config _⟩

end

/-! ### Runs that are written -/

section

variable {π : Type} [DecidableEq π] {digest : Corpus → π} {changed : List Change}
  {corpus : Corpus} {search search' : Search} {runId runId' : String} {config config' : Config}
  {base cand : ComparisonRun π}

omit [DecidableEq π] in
theorem of_compare (written : compare digest corpus search runId config = some base) :
    base.config = config ∧ base.provenance = digest corpus ∧ base.rows = config.rows corpus search ∧
      ∀ row ∈ base.rows, (corpus.golds.get? row.caseId).isSome := by
  unfold compare at written
  split_ifs at written with refused known
  obtain rfl := Option.some_inj.mp written
  exact ⟨rfl, rfl, rfl, List.all_eq_true.mp known⟩

/-- Of two runs that have rows, the one with more repeats has all the keys of the other. -/
theorem missingKeys_rows_eq_nil_iff (selected : config.selected corpus = config'.selected corpus)
    (some_ : config.rows corpus search ≠ []) (some' : config'.rows corpus search' ≠ []) :
    missingKeys Row.key (config.rows corpus search) (config'.rows corpus search') = [] ↔
      config'.repeats ≤ config.repeats := by
  rw [rows_ne_nil_iff] at some_ some'
  rw [missingKeys_eq_nil_iff, ← List.forall_mem_map (f := Row.key)
    (P := fun key => key ∈ (config.rows corpus search).map Row.key)]
  constructor
  · intro all
    obtain ⟨case_, listed⟩ := List.exists_mem_of_length_pos (Nat.pos_of_ne_zero some'.2.1)
    have last : (case_.id, config'.repeats) ∈ (config'.rows corpus search').map Row.key :=
      mem_keys_iff.mpr ⟨⟨some'.2.2, case_, listed, rfl⟩, Nat.one_le_iff_ne_zero.mpr some'.1, le_rfl⟩
    exact (mem_keys_iff.mp (all _ last)).2.2
  · intro fewer key member
    obtain ⟨⟨-, present⟩, first, last⟩ := mem_keys_iff.mp member
    exact mem_keys_iff.mpr ⟨⟨some_.2.2, selected ▸ present⟩, first, last.trans fewer⟩

/-- Runs with the law that are analysed have a report of rows that correspond one to one. -/
theorem PairLaw.of_all {golds : Dict String Gold} (law : PairLaw golds changed base cand)
    (whole : base.Unbroken) (whole' : cand.Unbroken)
    (declared : undeclared changed base.config cand.config = [])
    (sameFiles : base.provenance = cand.provenance)
    (known : ∀ row ∈ base.rows, (golds.get? row.caseId).isSome)
    (all : missingKeys Row.key base.rows cand.rows = []) :
    ∃ report, OneToOne golds changed base.rows cand.rows report := by
  rcases law.reports with refused | ⟨report, -, oneToOne⟩
  · rw [analyze_of_all whole whole' declared sameFiles known all] at refused
    cases refused
  · exact ⟨report, oneToOne⟩

/-- Runs with the law are loaded, since a run that is not is neither refused nor reported on. -/
theorem PairLaw.unbroken {golds : Dict String Gold} (law : PairLaw golds changed base cand) :
    base.Unbroken ∧ cand.Unbroken := by
  by_contra broken
  have failed : analyze golds changed base cand = .decodeError := analyze_of_broken broken
  rcases law.reports with refused | ⟨report, made, -⟩
  · rw [failed] at refused
    cases refused
  · rw [failed] at made
    cases made

/-- The law for the missing keys: if the analysis refuses the runs, it refuses them exchanged. -/
theorem missingKeys_exchange {golds : Dict String Gold} (law : PairLaw golds changed base cand)
    (whole : base.Unbroken) (whole' : cand.Unbroken)
    (declared : undeclared changed base.config cand.config = [])
    (sameFiles : base.provenance = cand.provenance)
    (known' : ∀ row ∈ cand.rows, (golds.get? row.caseId).isSome)
    (missing : missingKeys Row.key base.rows cand.rows ≠ []) :
    missingKeys Row.key cand.rows base.rows ≠ [] := by
  intro all
  have declared' := undeclared_comm changed base.config cand.config ▸ declared
  have refused := law.refused.mpr (analyze_of_missing whole whole' declared sameFiles missing)
  rw [analyze_of_all whole' whole declared' sameFiles.symm known' all] at refused
  cases refused

/-- Runs whose keys are paired as the law wants it either have no rows or have variants and repeats
that tell the rows apart. -/
theorem separable_of_pairLaw {golds : Dict String Gold} (law : PairLaw golds changed base cand)
    (whole : base.Unbroken) (whole' : cand.Unbroken)
    (declared : undeclared changed base.config cand.config = [])
    (sameFiles : base.provenance = cand.provenance)
    (rows : base.rows = base.config.rows corpus search)
    (rows' : cand.rows = cand.config.rows corpus search')
    (known : ∀ row ∈ base.rows, (golds.get? row.caseId).isSome)
    (known' : ∀ row ∈ cand.rows, (golds.get? row.caseId).isSome)
    (selected : base.config.selected corpus = cand.config.selected corpus) :
    Separable corpus base cand := by
  have paired (all : missingKeys Row.key base.rows cand.rows = []) :
      (base.rows.map Row.key).Nodup ∧ (cand.rows.map Row.key).Perm (base.rows.map Row.key) := by
    obtain ⟨report, oneToOne⟩ := law.of_all whole whole' declared sameFiles known all
    exact (partners_perm_iff all).mp oneToOne.partners
  have bothMissing := missingKeys_exchange law whole whole' declared sameFiles known'
  by_cases some_ : base.rows = []
  · -- The exchanged runs have no missing row, so the runs themselves have none.
    have all : missingKeys Row.key base.rows cand.rows = [] := by
      by_contra missing
      refine bothMissing missing (missingKeys_eq_nil_iff.mpr ?_)
      rw [some_]
      exact fun row listed => by cases listed
    have keys := (paired all).2
    rw [some_, List.map_nil] at keys
    exact .inl ⟨some_, List.map_eq_nil_iff.mp keys.eq_nil⟩
  by_cases some' : cand.rows = []
  · have all : missingKeys Row.key base.rows cand.rows = [] := by rw [some', missingKeys]; rfl
    have keys := (paired all).2
    rw [some', List.map_nil] at keys
    exact absurd (List.map_eq_nil_iff.mp keys.symm.eq_nil) some_
  rw [rows] at some_
  rw [rows'] at some'
  -- A candidate with more repeats would miss keys in one direction only.
  have fewer : cand.config.repeats ≤ base.config.repeats := by
    by_contra more
    have missing := mt (missingKeys_rows_eq_nil_iff selected some_ some').mp more
    rw [← rows, ← rows'] at missing
    refine bothMissing missing ?_
    rw [rows, rows']
    exact (missingKeys_rows_eq_nil_iff selected.symm some' some_).mpr (Nat.le_of_not_le more)
  have all := (missingKeys_rows_eq_nil_iff selected some_ some').mpr fewer
  rw [← rows, ← rows'] at all
  obtain ⟨distinct, same⟩ := paired all
  have distinct' := same.nodup_iff.mpr distinct
  rw [rows] at distinct
  rw [rows'] at distinct'
  obtain ⟨one, ids⟩ := one_of_nodup some_ distinct
  obtain ⟨one', -⟩ := one_of_nodup some' distinct'
  -- The lists of rows are equally long, and each is made of the repeats of the same cases.
  have lengths := same.length_eq
  rw [List.length_map, List.length_map, rows, rows', length_rows, length_rows, one, one',
    ← selected, Nat.mul_one] at lengths
  obtain ⟨-, cases_, -⟩ := (rows_ne_nil_iff ..).mp some_
  have repeats := Nat.eq_of_mul_eq_mul_right (Nat.pos_of_ne_zero cases_) lengths
  exact .inr ⟨Nat.eq_one_of_mul_eq_one_right one, Nat.eq_one_of_mul_eq_one_left one,
    Nat.eq_one_of_mul_eq_one_right one', Nat.eq_one_of_mul_eq_one_left one', repeats.symm, ids⟩

/-- Runs that are told apart are made for the same places, and keep the law. -/
theorem pairLaw_of_separable {golds : Dict String Gold} (separable : Separable corpus base cand)
    (whole : base.Unbroken) (whole' : cand.Unbroken)
    (declared : undeclared changed base.config cand.config = [])
    (sameFiles : base.provenance = cand.provenance)
    (rows : base.rows = base.config.rows corpus search)
    (rows' : cand.rows = cand.config.rows corpus search')
    (known : ∀ row ∈ base.rows, (golds.get? row.caseId).isSome)
    (selected : base.config.selected corpus = cand.config.selected corpus) :
    PairLaw golds changed base cand := by
  obtain ⟨-, sameChunking, sameRetriever⟩ := same_of_declared declared
  rcases separable with
    ⟨none, none'⟩ | ⟨chunking, retriever, chunking', retriever', sameRepeats, ids⟩
  · exact @pairLaw_of_places Row [] id id π _ golds changed base cand whole whole' declared
      sameFiles known none none' (fun _ listed => by cases listed) (none ▸ List.nodup_nil)
  -- With one chunking and one retriever on each side the rows are made for the same places.
  obtain ⟨x, oneChunking⟩ := List.length_eq_one_iff.mp chunking
  obtain ⟨u, oneRetriever⟩ := List.length_eq_one_iff.mp retriever
  obtain ⟨y, oneChunking'⟩ := List.length_eq_one_iff.mp chunking'
  obtain ⟨v, oneRetriever'⟩ := List.length_eq_one_iff.mp retriever'
  have one : base.config.variants = 1 := by rw [Config.variants, chunking, retriever]
  rw [rows_of_one search _ _ oneChunking oneRetriever] at rows
  rw [rows_of_one search' _ _ oneChunking' oneRetriever', ← sameRepeats, ← selected] at rows'
  refine pairLaw_of_places whole whole' declared sameFiles known rows rows' (fun place _ => ?_) ?_
  · obtain ⟨key, type, chunk, retrieve⟩ :=
      searchRow_made_for search base.config place.1 place.2 x u
    obtain ⟨key', type', chunk', retrieve'⟩ :=
      searchRow_made_for search' cand.config place.1 place.2 y v
    have sameKey := key.trans key'.symm
    refine ⟨⟨congrArg Prod.fst sameKey, congrArg Prod.snd sameKey, fun kept => ?_,
      fun kept => ?_⟩, type.trans type'.symm⟩
    -- A field that is not declared as changed has one value on both sides.
    · have same := sameChunking kept
      rw [oneChunking, oneChunking', List.cons.injEq] at same
      rw [chunk, chunk', same.1]
    · have same := sameRetriever kept
      rw [oneRetriever, oneRetriever', List.cons.injEq] at same
      rw [retrieve, retrieve', same.1]
  · rw [rows, ← rows_of_one search _ _ oneChunking oneRetriever]
    exact nodup_keys one ids

/-- **When the analysis keeps the law.** For two runs over the same files with only declared
differences, the rows are paired one to one, and the exchange of the runs negates the deltas, if
and only if no row is cut where it is read and each run has one chunking and one retriever, both
have the same number of repeats and the cases have distinct ids; or neither run has a row. -/
theorem pairLaw_iff (digest : Corpus → π) (changed : List Change) (corpus corpus' : Corpus)
    (search search' : Search) (runId runId' : String) (config config' : Config)
    (base cand : ComparisonRun π) (written : compare digest corpus search runId config = some base)
    (written' : compare digest corpus' search' runId' config' = some cand)
    (sameFiles : base.provenance = cand.provenance)
    (noCollision : digest corpus = digest corpus' → corpus = corpus')
    (declared : undeclared changed base.config cand.config = []) :
    PairLaw corpus.golds changed base cand ↔
      base.Unbroken ∧ cand.Unbroken ∧ Separable corpus base cand := by
  obtain ⟨rfl, files, rows, known⟩ := of_compare written
  obtain ⟨rfl, files', rows', known'⟩ := of_compare written'
  obtain rfl := noCollision (files.symm.trans (sameFiles.trans files'))
  have selected : base.config.selected corpus = cand.config.selected corpus := by
    rw [Config.selected, (same_of_declared declared).1, Config.selected]
  constructor
  · intro law
    obtain ⟨whole, whole'⟩ := law.unbroken
    exact ⟨whole, whole', separable_of_pairLaw law whole whole' declared sameFiles rows rows' known
      known' selected⟩
  · rintro ⟨whole, whole', separable⟩
    exact pairLaw_of_separable separable whole whole' declared sameFiles rows rows' known selected

end

/-- A case. -/
def deadlineCase : Case :=
  ⟨"deadline", "simple", "신청 기한은 언제인가요?", "알파", "2026-09-08", "business"⟩

/-- One case, with one document that is expected for it. -/
def deadlineCorpus : Corpus where
  cases := [deadlineCase]
  gold := [⟨"deadline", ["sla"]⟩]

/-- A search that finds the document in the chunks of one kind only. -/
def boundedSearch : Search :=
  fun _ _ chunking _ => .ok (if chunking = "bounded" then ["sla"] else [])

/-- A run over the files, with the files for their digests. -/
def deadlineRun (config : Config) : ComparisonRun Corpus where
  runId := "20260908T090000"
  config := config
  provenance := deadlineCorpus
  rows := config.rows deadlineCorpus boundedSearch

/-- No row of such a run is cut. -/
theorem unbroken_deadlineRun (config : Config)
    (plain : ∀ row ∈ (deadlineRun config).rows, ∀ text ∈ row.toJson.strings,
      text.toList.all fun c => !Json.isRawBreak c) : (deadlineRun config).Unbroken :=
  fun row listed text inside c member => by
    simpa using List.all_eq_true.mp (plain row listed text inside) c member

theorem pairLaw_iff_deadline :
    PairLaw deadlineCorpus.golds [.chunking] (deadlineRun { chunkings := ["bounded"] })
      (deadlineRun { chunkings := ["fixed"] }) := by
  have separable : Separable deadlineCorpus (deadlineRun { chunkings := ["bounded"] })
      (deadlineRun { chunkings := ["fixed"] }) := .inr (by decide)
  exact (pairLaw_iff id [.chunking] deadlineCorpus deadlineCorpus boundedSearch boundedSearch
    "20260908T090000" "20260908T090000" { chunkings := ["bounded"] } { chunkings := ["fixed"] } _ _
    rfl rfl rfl (fun _ => rfl) (by decide)).mpr
    ⟨unbroken_deadlineRun _ (by decide), unbroken_deadlineRun _ (by decide), separable⟩

/-- With the conditions as they come, the rows of the first chunking are dropped and those of the
second are paired twice. -/
theorem not_pairLaw_twoChunkings :
    compare id deadlineCorpus boundedSearch "20260908T090000" {} = some (deadlineRun {}) ∧
      compare id deadlineCorpus boundedSearch "20260908T090000" { k := 3 } =
        some (deadlineRun { k := 3 }) ∧
      undeclared [.k] (deadlineRun {}).config (deadlineRun { k := 3 }).config = [] ∧
      ¬PairLaw deadlineCorpus.golds [.k] (deadlineRun {}) (deadlineRun { k := 3 }) := by
  refine ⟨rfl, rfl, by decide, fun law => ?_⟩
  obtain ⟨report, paired⟩ := law.of_all (unbroken_deadlineRun _ (by decide))
    (unbroken_deadlineRun _ (by decide)) (by decide) rfl (by decide) (by decide)
  have dropped : (searchRow boundedSearch {} 1 deadlineCase "bounded" "bm25", 0) ∉
      (placedPairs (deadlineRun {}).rows (deadlineRun { k := 3 }).rows).map Prod.fst := by decide
  exact dropped (paired.partners.mem_iff.mpr (by decide))

end AgentLabs.Retrieval
