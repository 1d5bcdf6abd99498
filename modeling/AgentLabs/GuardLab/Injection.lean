import AgentLabs.GuardLab.Disclosure
import AgentLabs.Math.Rounding
import AgentLabs.Text.Lines
import Mathlib.Data.List.Infix
import Mathlib.Data.List.MinMax

/-!
# Looking for injected instructions

A remote classifier reads a long document in chunks. A chunk is risky when its probability is
at or above the threshold, and the signal of the document is the one of the chunk with the
highest score. The score is the probability rounded to four digits, so a chunk that is just
below the threshold and one that is just above it may have the same score; the first of them
stands for the document then.

A judge answers in words. The lines of its answer are read from the last one on, up to one that
decides or that carries a verdict; where that decides nothing, the last 120 characters are
looked at.

What the services answer comes from outside. `exp` is a parameter, and so is what
`str.lower` makes of a text and which characters beyond ASCII belong to words.

## Main definitions

* `InjectionGuard.chunks`, `classifyChunk`, `scanRemote`: the scan of a document
* `ScanLaw`: the signal of a document is risky if that of a chunk is
* `parseVerdict`: the verdict of a judge

## Main results

* `scanLaw_iff`: when the scan of a document keeps the law
* `parseVerdict_law`: which line decides
-/

namespace AgentLabs.GuardLab

open Math Text

/-! ### The remote classifier -/

/-- The signal of an injection guard, with its score as a number. -/
structure RemoteSignal where
  stage : String
  status : SignalStatus
  riskLabels : List String := []
  scoreType : String
  score : Option ℚ := none
  modelId : String
  detail : String := ""
  deriving DecidableEq, Repr

/-- `GuardSignal.risky`. -/
def RemoteSignal.risky (signal : RemoteSignal) : Bool := !signal.riskLabels.isEmpty

/-- `sig.score or 0`. -/
def RemoteSignal.points (signal : RemoteSignal) : ℚ := signal.score.getD 0

/-- `unknown_signal`. -/
def unknownSignal (stage modelId detail : String) : RemoteSignal :=
  { stage, status := .unknown, modelId, scoreType := "none", detail }

/-- The settings of a guard in mode `remote`. -/
structure InjectionGuard where
  kind : String
  url : String
  model : String
  threshold : ℚ
  chunkChars : ℕ

/-- What the endpoint answers to a chunk: an exception on the way, or the log probabilities of
the first token, where they can be read, and the text. -/
inductive Reply where
  | failed (exception : String)
  | choice (top : Option (List (String × ℚ))) (content : String)

/-- The log probabilities by token. Of tokens that differ in blanks only, the larger counts. -/
def tokenTable (top : List (String × ℚ)) : Dict String ℚ :=
  top.foldl (fun table t =>
    table.set (strip t.1) (((table.get? (strip t.1)).map (max · t.2)).getD t.2)) []

/-- The labels of Kanana's tokens. -/
def kananaLabels : Dict String (Option String) :=
  [("<SAFE>", none), ("<UNSAFE-A1>", some "injection"), ("<UNSAFE-A2>", some "prompt_leaking")]

namespace InjectionGuard

variable (guard : InjectionGuard) (exp : ℚ → ℚ)

/-- `InjectionGuard.model_id`. -/
def modelId : String := guard.kind ++ ":" ++ guard.model

/-- The probability that a chunk is not safe; none where the tokens do not tell. -/
def sguardProbability (table : Dict String ℚ) (first : String) : Option ℚ :=
  match table.get? "safe", table.get? "unsafe" with
  | some a, some b => some (exp (b - max a b) / (exp (a - max a b) + exp (b - max a b)))
  | _, _ => if first = "unsafe" then some 1 else if first = "safe" then some 0 else none

/-- A signal read off a probability. -/
def tokenSignal (stage : String) (labels : List String) (p : ℚ) : RemoteSignal :=
  { stage
    status := .ok
    riskLabels := if guard.threshold ≤ p then labels else []
    scoreType := "token_prob"
    score := some (round4 p)
    modelId := guard.modelId }

/-- `_sguard`. -/
def sguard (table : Dict String ℚ) (first stage : String) : RemoteSignal :=
  match sguardProbability exp table first with
  | some p => guard.tokenSignal stage ["injection"] p
  | none => unknownSignal stage guard.modelId "safe/unsafe 토큰이 logprob 상위에 없음"

/-- The part of Kanana's tokens that are not safe. -/
def kananaProbability (present : Dict String ℚ) : ℚ :=
  let m := (present.map Prod.snd).max?.getD 0
  let weight := fun entry : String × ℚ => exp (entry.2 - m)
  ((present.filter fun entry => (kananaLabels.get? entry.1).join.isSome).map weight).sum /
    (present.map weight).sum

/-- `_kanana`. Without one of the labels in the table the text decides alone. -/
def kanana (table : Dict String ℚ) (first stage : String) : RemoteSignal :=
  let present := table.filter fun entry => entry.1 ∈ kananaLabels.keys
  if present = [] then
    match kananaLabels.get? first with
    | some lab =>
      { stage
        status := .ok
        riskLabels := lab.toList
        scoreType := "token_prob"
        score := some (if lab.isSome then 1 else 0)
        modelId := guard.modelId }
    | none => unknownSignal stage guard.modelId "Kanana 라벨 토큰이 응답에 없음"
  else
    let top := (present.argmax Prod.snd).bind fun entry => (kananaLabels.get? entry.1).join
    guard.tokenSignal stage [top.getD "injection"] (kananaProbability exp present)

/-- `_classify_chunk`, on what the endpoint answers. -/
def classifyChunk (stage : String) : Reply → RemoteSignal
  | .failed exception =>
    unknownSignal stage guard.modelId ("원격 호출 실패: " ++ exception)
  | .choice top content =>
    let table := tokenTable (top.getD [])
    if guard.kind = "sguard" then guard.sguard exp table (strip content) stage
    else if guard.kind = "kanana" then guard.kanana exp table (strip content) stage
    else unknownSignal stage guard.modelId ("알 수 없는 kind: " ++ guard.kind)

/-- `_chunks`: parts of the size of a chunk, and the rest. -/
def chunks (text : String) : List String :=
  if text.length ≤ guard.chunkChars then [text]
  else
    (List.range ((text.length + guard.chunkChars - 1) / guard.chunkChars)).map fun i =>
      .ofList ((text.toList.drop (i * guard.chunkChars)).take guard.chunkChars)

/-- The loop of `_scan_remote`, from a chunk on, with the best signal so far. -/
def scanLoop (classify : ℕ → String → RemoteSignal) (total : ℕ) (nothing : RemoteSignal) :
    ℕ → Option RemoteSignal → List String → RemoteSignal
  | _, best, [] => best.getD nothing
  | i, best, chunk :: rest =>
    let sig := classify i chunk
    if sig.status = .unknown then sig
    else
      let sig := { sig with detail := "chunk " ++ toString (i + 1) ++ "/" ++ toString total }
      match best with
      | none => scanLoop classify total nothing (i + 1) (some sig) rest
      | some b =>
        scanLoop classify total nothing (i + 1)
          (some (if b.points < sig.points then sig else b)) rest

/-- `_scan_remote`. `classify` is what the classification of each chunk in turn answers. -/
def scanRemote (classify : ℕ → String → RemoteSignal) (text stage : String) : RemoteSignal :=
  if guard.url = "" ∨ guard.model = "" then
    unknownSignal stage guard.modelId "GUARD_INJECTION_URL/MODEL 미설정"
  else
    scanLoop classify (guard.chunks text).length (unknownSignal stage guard.modelId "빈 입력") 0
      none (guard.chunks text)

/-- The signal of a chunk is read off a probability. -/
def Graded (p : ℚ) (signal : RemoteSignal) : Prop :=
  (signal.risky ↔ guard.threshold ≤ p) ∧ signal.score = some (round4 p)

/-- What a scan in chunks promises: nothing of the text is left out, a chunk that cannot be
judged leaves the text unjudged, and otherwise the text is as risky as its chunks and has the
highest of their scores. -/
structure ScanLaw (classify : ℕ → String → RemoteSignal) (text stage : String) : Prop where
  whole : (guard.chunks text).flatMap String.toList = text.toList
  unknown : (∃ i chunk, (guard.chunks text)[i]? = some chunk ∧
    (classify i chunk).status = .unknown) → (guard.scanRemote classify text stage).status = .unknown
  known : (∀ i chunk, (guard.chunks text)[i]? = some chunk → (classify i chunk).status = .ok) →
    (guard.scanRemote classify text stage).status = .ok ∧
    ((guard.scanRemote classify text stage).risky ↔
      ∃ i chunk, (guard.chunks text)[i]? = some chunk ∧ (classify i chunk).risky) ∧
    (∃ i chunk, (guard.chunks text)[i]? = some chunk ∧
      (guard.scanRemote classify text stage).score = (classify i chunk).score) ∧
    ∀ i chunk, (guard.chunks text)[i]? = some chunk →
      (classify i chunk).points ≤ (guard.scanRemote classify text stage).points

variable {guard : InjectionGuard} {exp : ℚ → ℚ} {classify : ℕ → String → RemoteSignal}
  {prob : ℕ → ℚ} {text stage chunk : String} {total i : ℕ} {nothing best : RemoteSignal}
  {rest : List String}

/-! ### Signals of chunks -/

theorem graded_tokenSignal (stage : String) {labels : List String} (nonempty : labels ≠ [])
    (p : ℚ) : guard.Graded p (guard.tokenSignal stage labels p) := by
  refine ⟨?_, rfl⟩
  unfold tokenSignal RemoteSignal.risky
  split_ifs with risky <;> simp [risky, nonempty]

/-- The signals of the one model are read off its probability. -/
theorem graded_sguard {table : Dict String ℚ} {first : String}
    (known : (guard.sguard exp table first stage).status = .ok) :
    ∃ p, sguardProbability exp table first = some p ∧
      guard.Graded p (guard.sguard exp table first stage) := by
  unfold sguard at known ⊢
  cases found : sguardProbability exp table first with
  | none => simp [found, unknownSignal] at known
  | some p => exact ⟨p, rfl, graded_tokenSignal stage (by simp) p⟩

/-- So are those of the other one, where it names a label among its tokens. -/
theorem graded_kanana {table : Dict String ℚ} {first : String}
    (present : (table.filter fun entry => entry.1 ∈ kananaLabels.keys) ≠ []) :
    guard.Graded (kananaProbability exp (table.filter fun entry => entry.1 ∈ kananaLabels.keys))
      (guard.kanana exp table first stage) := by
  simp only [kanana, if_neg present]
  exact graded_tokenSignal stage (by simp) _

/-! ### Chunks -/

theorem flatMap_take (text : List Char) (size count : ℕ) :
    ((List.range count).flatMap fun i => (text.drop (i * size)).take size) =
      text.take (count * size) := by
  induction count with
  | zero => simp
  | succ count ih =>
    rw [List.range_succ, List.flatMap_append, ih, List.flatMap_singleton, Nat.succ_mul,
      List.take_add]

/-- The chunks are the text. -/
theorem flatMap_chunks (size : 0 < guard.chunkChars) (text : String) :
    (guard.chunks text).flatMap String.toList = text.toList := by
  unfold chunks
  split_ifs with short
  · simp
  · rw [List.flatMap_map]
    simp only [String.toList_ofList]
    rw [flatMap_take, List.take_of_length_le]
    rw [String.length_toList]
    have := Nat.div_add_mod (text.length + guard.chunkChars - 1) guard.chunkChars
    have := Nat.mod_lt (text.length + guard.chunkChars - 1) size
    rw [Nat.mul_comm]
    omega

theorem chunks_ne_nil (size : 0 < guard.chunkChars) (text : String) : guard.chunks text ≠ [] := by
  unfold chunks
  split_ifs with short
  · simp
  · intro none
    rw [List.map_eq_nil_iff, List.range_eq_nil, Nat.div_eq_zero_iff] at none
    omega

/-! ### The loop -/

/-- A chunk that cannot be judged ends the loop. -/
theorem scanLoop_unknown {best : Option RemoteSignal}
    (unknown : ∃ k chunk, rest[k]? = some chunk ∧ (classify (i + k) chunk).status = .unknown) :
    (scanLoop classify total nothing i best rest).status = .unknown := by
  induction rest generalizing i best with
  | nil => simp at unknown
  | cons chunk rest ih =>
    rw [scanLoop]
    by_cases here : (classify i chunk).status = .unknown
    · simp only [here, if_true]
    · obtain ⟨k, later, found, status⟩ := unknown
      have next : ∃ k chunk, rest[k]? = some chunk ∧
          (classify (i + 1 + k) chunk).status = .unknown := by
        cases k with
        | zero =>
          rw [List.getElem?_cons_zero, Option.some.injEq] at found
          exact absurd (found ▸ status) here
        | succ k =>
          rw [List.getElem?_cons_succ] at found
          exact ⟨k, later, found, by rwa [Nat.add_assoc, Nat.add_comm 1]⟩
      simp only [here, if_false]
      cases best <;> exact ih next

/-- What the loop makes of the signal of a chunk. -/
def judged (classify : ℕ → String → RemoteSignal) (total : ℕ) (entry : String × ℕ) :
    RemoteSignal :=
  { classify entry.2 entry.1 with
    detail := "chunk " ++ toString (entry.2 + 1) ++ "/" ++ toString total }

/-- Where every chunk can be judged, the loop takes the first signal of the highest score. -/
theorem scanLoop_known {best : Option RemoteSignal}
    (known : ∀ k chunk, rest[k]? = some chunk → (classify (i + k) chunk).status = .ok) :
    scanLoop classify total nothing i best rest =
      (((rest.zipIdx i).map (judged classify total)).foldl
        (List.argAux fun b c => c.points < b.points) best).getD nothing := by
  induction rest generalizing i best with
  | nil => rfl
  | cons chunk rest ih =>
    have here : (classify i chunk).status ≠ .unknown := by
      have := known 0 chunk rfl
      rw [Nat.add_zero] at this
      simp [this]
    have next : ∀ k chunk, rest[k]? = some chunk → (classify (i + 1 + k) chunk).status = .ok := by
      intro k other found
      rw [Nat.add_assoc, Nat.add_comm 1]
      exact known (k + 1) other found
    rw [scanLoop]
    simp only [if_neg here, List.zipIdx_cons, List.map_cons, List.foldl_cons]
    cases best with
    | none => exact ih next
    | some b =>
      -- The comparison of the loop is that of `argmax`: an equal score does not replace.
      have step : some (if b.points < (judged classify total (chunk, i)).points then
          judged classify total (chunk, i) else b) =
          List.argAux (fun b c => c.points < b.points) (some b)
            (judged classify total (chunk, i)) :=
        apply_ite some _ _ _
      rw [← step]
      exact ih next

/-- The first element of the highest value, by its position. -/
theorem exists_first_of_argmax {α : Type} [DecidableEq α] {f : α → ℚ} {items : List α} {m : α}
    (best : List.argmax f items = some m) :
    ∃ k : ℕ, items[k]? = some m ∧
      ∀ (j : ℕ) a, items[j]? = some a → f a ≤ f m ∧ (j < k → f a < f m) := by
  obtain ⟨member, highest, first⟩ := List.argmax_eq_some_iff.mp best
  refine ⟨items.idxOf m, List.getElem?_idxOf member, fun j a found => ?_⟩
  have inside := List.mem_of_getElem? found
  refine ⟨highest a inside, fun before => lt_of_le_of_ne (highest a inside) fun same => ?_⟩
  have position : items.idxOf a ≤ j := by
    by_contra later
    obtain ⟨inside, rfl⟩ := List.getElem?_eq_some_iff.mp found
    simpa using List.not_of_lt_findIdx (not_le.mp later)
  exact absurd (first a inside same.ge) (by omega)

/-- The chunk whose signal stands for the text: the first one of the highest score. -/
theorem exists_scanRemote (configured : guard.url ≠ "" ∧ guard.model ≠ "")
    (size : 0 < guard.chunkChars)
    (known : ∀ i chunk, (guard.chunks text)[i]? = some chunk → (classify i chunk).status = .ok)
    (stage : String) :
    ∃ k chunk detail, (guard.chunks text)[k]? = some chunk ∧
      guard.scanRemote classify text stage = { classify k chunk with detail } ∧
      ∀ j other, (guard.chunks text)[j]? = some other →
        (classify j other).points ≤ (classify k chunk).points ∧
          (j < k → (classify j other).points < (classify k chunk).points) := by
  have loop : guard.scanRemote classify text stage =
      (List.argmax RemoteSignal.points (((guard.chunks text).zipIdx).map
        (judged classify (guard.chunks text).length))).getD
          (unknownSignal stage guard.modelId "빈 입력") := by
    rw [scanRemote, if_neg (by simp [configured.1, configured.2]), scanLoop_known]
    · rfl
    · simpa using known
  -- There is at least one chunk, also of the empty text.
  obtain ⟨r, best⟩ : ∃ r, List.argmax RemoteSignal.points (((guard.chunks text).zipIdx).map
      (judged classify (guard.chunks text).length)) = some r := by
    refine Option.ne_none_iff_exists'.mp fun none => chunks_ne_nil size text ?_
    simpa using List.argmax_eq_none.mp none
  rw [best, Option.getD_some] at loop
  have entry : ∀ j, (((guard.chunks text).zipIdx).map
      (judged classify (guard.chunks text).length))[j]? =
        (guard.chunks text)[j]?.map fun chunk =>
          judged classify (guard.chunks text).length (chunk, j) := by
    intro j
    simp [List.getElem?_map, List.getElem?_zipIdx, Function.comp_def]
  obtain ⟨k, found, first⟩ := exists_first_of_argmax best
  rw [entry, Option.map_eq_some_iff] at found
  obtain ⟨chunk, found, rfl⟩ := found
  refine ⟨k, chunk, _, found, loop, fun j other place => ?_⟩
  exact first j (judged classify (guard.chunks text).length (other, j))
    (by rw [entry, place, Option.map_some])

/-- What the law asks of the risk where every chunk can be judged: a chunk below the threshold
whose rounded probability is the highest of all comes after a risky one, if there is any. -/
def HighestFirst (guard : InjectionGuard) (prob : ℕ → ℚ) (count : ℕ) : Prop :=
  ∀ i < count, prob i < guard.threshold → (∀ j < count, round4 (prob j) ≤ round4 (prob i)) →
    (∃ j < count, guard.threshold ≤ prob j) → ∃ j < i, guard.threshold ≤ prob j

/-- The chunk that stands for the text is risky if any is, exactly if the highest come first. -/
theorem risky_iff_highestFirst {count k : ℕ} (inside : k < count)
    (highest : ∀ j < count, round4 (prob j) ≤ round4 (prob k) ∧
      (j < k → round4 (prob j) < round4 (prob k))) :
    (guard.threshold ≤ prob k ↔ ∃ j < count, guard.threshold ≤ prob j) ↔
      guard.HighestFirst prob count := by
  constructor
  · intro same i below less most risky
    have top := same.mpr risky
    refine ⟨k, ?_, top⟩
    by_contra after
    rcases Nat.lt_or_eq_of_le (not_lt.mp after) with before | rfl
    · exact absurd (most k inside) (not_le.mpr ((highest i below).2 before))
    · exact absurd top (not_le.mpr less)
  · intro first
    refine ⟨fun risky => ⟨k, inside, risky⟩, fun risky => ?_⟩
    by_contra less
    rw [not_le] at less
    obtain ⟨j, before, top⟩ := first k inside less (fun j below => (highest j below).1) risky
    -- An earlier chunk with a larger probability would have been taken instead.
    exact absurd (round4_mono (less.trans_le top).le)
      (not_le.mpr ((highest j (before.trans inside)).2 before))

/-- The scan in chunks keeps its law exactly if some chunk cannot be judged, or no chunk below
the threshold has the highest score before all risky ones, where there is a risky one. -/
theorem scanLaw_iff (configured : guard.url ≠ "" ∧ guard.model ≠ "")
    (size : 0 < guard.chunkChars)
    (graded : ∀ i chunk, (guard.chunks text)[i]? = some chunk →
      (classify i chunk).status = .ok → guard.Graded (prob i) (classify i chunk)) :
    guard.ScanLaw classify text stage ↔
      ((∀ i chunk, (guard.chunks text)[i]? = some chunk → (classify i chunk).status = .ok) →
        guard.HighestFirst prob (guard.chunks text).length) := by
  have unknown : (∃ i chunk, (guard.chunks text)[i]? = some chunk ∧
      (classify i chunk).status = .unknown) →
      (guard.scanRemote classify text stage).status = .unknown := by
    rintro ⟨i, chunk, found, status⟩
    rw [scanRemote, if_neg (by simp [configured.1, configured.2])]
    exact scanLoop_unknown ⟨i, chunk, found, by rwa [Nat.zero_add]⟩
  by_cases known : ∀ i chunk, (guard.chunks text)[i]? = some chunk →
      (classify i chunk).status = .ok
  · obtain ⟨k, chunk, detail, found, result, first⟩ :=
      exists_scanRemote configured size known stage
    obtain ⟨inside, -⟩ := List.getElem?_eq_some_iff.mp found
    have points : ∀ j other, (guard.chunks text)[j]? = some other →
        (classify j other).points = round4 (prob j) := fun j other place => by
      rw [RemoteSignal.points, (graded j other place (known j other place)).2, Option.getD_some]
    have risky : ∀ j other, (guard.chunks text)[j]? = some other →
        ((classify j other).risky ↔ guard.threshold ≤ prob j) := fun j other place =>
      (graded j other place (known j other place)).1
    -- The signal that is kept is the first one with the highest rounded score.
    have highest : ∀ j < (guard.chunks text).length, round4 (prob j) ≤ round4 (prob k) ∧
        (j < k → round4 (prob j) < round4 (prob k)) := fun j below => by
      have place := List.getElem?_eq_getElem below
      have := first j _ place
      rwa [points j _ place, points k chunk found] at this
    have some_risky : (∃ i chunk, (guard.chunks text)[i]? = some chunk ∧ (classify i chunk).risky) ↔
        ∃ j < (guard.chunks text).length, guard.threshold ≤ prob j := by
      constructor
      · rintro ⟨i, other, place, risk⟩
        exact ⟨i, (List.getElem?_eq_some_iff.mp place).1, (risky i other place).mp risk⟩
      · rintro ⟨j, below, risk⟩
        have place := List.getElem?_eq_getElem below
        exact ⟨j, _, place, (risky j _ place).mpr risk⟩
    have own : (guard.scanRemote classify text stage).risky ↔ guard.threshold ≤ prob k := by
      rw [result]
      exact risky k chunk found
    rw [imp_iff_right known, ← risky_iff_highestFirst inside highest, ← own, ← some_risky]
    refine ⟨fun law => (law.known known).2.1, fun same =>
      ⟨flatMap_chunks size text, unknown, fun _ =>
      ⟨?_, same, ⟨k, chunk, found, ?_⟩, fun j other place => ?_⟩⟩⟩
    · rw [result]
      exact known k chunk found
    · rw [result]
    · rw [result]
      exact (first j other place).1
  · refine iff_of_true ⟨flatMap_chunks size text, unknown, fun all => absurd all known⟩
      fun all => absurd all known

/-- A guard that reads a document character by character. -/
def oneByOne : InjectionGuard :=
  { kind := "sguard", url := "https://guard", model := "m", threshold := 3 / 5, chunkChars := 1 }

/-- A chunk just below the threshold, and then one just above it. -/
def nearThreshold (i : ℕ) (_ : String) : RemoteSignal :=
  oneByOne.tokenSignal "input" ["injection"] (if i = 0 then 59996 / 100000 else 60001 / 100000)

/-- The two have the same score, and the first stands for the text. -/
theorem not_scanLaw_nearThreshold : ¬ oneByOne.ScanLaw nearThreshold "ab" "input" := by
  intro law
  have known : ∀ i chunk, (oneByOne.chunks "ab")[i]? = some chunk →
      (nearThreshold i chunk).status = .ok := fun _ _ _ => rfl
  have second : (oneByOne.chunks "ab")[1]? = some "b" := rfl
  have risky : (nearThreshold 1 "b").risky := by
    have above : (3 / 5 : ℚ) ≤ 60001 / 100000 := by norm_num
    simp [RemoteSignal.risky, nearThreshold, tokenSignal, oneByOne, above]
  have taken : (oneByOne.scanRemote nearThreshold "ab" "input").risky = false := by decide +kernel
  rw [(law.known known).2.1.mpr ⟨1, "b", second, risky⟩] at taken
  cases taken

/-- What an endpoint answers that finds the second chunk unsafe. -/
def secondUnsafe (i : ℕ) (_ : String) : RemoteSignal :=
  oneByOne.classifyChunk id "input" (.choice none (if i = 1 then "unsafe" else "safe"))

theorem secondUnsafe_eq (i : ℕ) (chunk : String) : secondUnsafe i chunk =
    oneByOne.tokenSignal "input" ["injection"] (if i = 1 then 1 else 0) := by
  by_cases second : i = 1
  · rw [if_pos second, secondUnsafe, if_pos second]
    rfl
  · rw [if_neg second, secondUnsafe, if_neg second]
    rfl

theorem scanLaw_secondUnsafe : oneByOne.ScanLaw secondUnsafe "ab" "input" := by
  have graded : ∀ i chunk, (oneByOne.chunks "ab")[i]? = some chunk →
      (secondUnsafe i chunk).status = .ok →
        oneByOne.Graded (if i = 1 then 1 else 0) (secondUnsafe i chunk) := fun i chunk _ _ => by
    rw [secondUnsafe_eq]
    exact graded_tokenSignal "input" (by simp) _
  refine (scanLaw_iff (by decide) (by decide) graded).mpr fun _ i below less most _ => ?_
  have two : (oneByOne.chunks "ab").length = 2 := rfl
  rw [two] at below most
  obtain rfl | rfl : i = 0 ∨ i = 1 := by omega
  · exact absurd (most 1 (by decide)) (by norm_num [round4, roundHalfEven])
  · exact absurd less (by norm_num [oneByOne])

end InjectionGuard

/-! ### The verdict of a judge -/

/-- The characters that belong to words: letters, digits and the underscore of ASCII, and some
beyond it. -/
def isWord (other : Char → Bool) (c : Char) : Bool :=
  if c.toNat < 128 then c.isAlphanum || c = '_' else other c

/-- A text contains another one. -/
def includes (needle : String) (cs : List Char) : Bool := needle.toList <:+: cs

/-- `re.search(r"\bword\b", text)`, from a place on, with the character in front of it. -/
def wordFrom (word : Char → Bool) (needle : List Char) : Option Char → List Char → Bool
  | _, [] => false
  | before, c :: cs =>
    (needle <+: c :: cs && !before.any word && !((c :: cs).drop needle.length).head?.any word) ||
      wordFrom word needle (some c) cs

section Verdict

variable (other : Char → Bool)

/-- The text has the word `safe`. -/
def saysSafe (cs : List Char) : Bool := wordFrom (isWord other) "safe".toList none cs

/-- The text says `unsafe`, be it in a longer word. -/
def saysUnsafe (cs : List Char) : Bool := includes "unsafe" cs

/-- The line is one of a verdict. -/
def carriesVerdict (cs : List Char) : Bool := includes "verdict" cs || includes "safety" cs

/-- What a text says of itself. -/
def textVerdict (cs : List Char) : Option Bool :=
  if saysUnsafe cs then some true else if saysSafe other cs then some false else none

/-- The lines of a text without surrounding blanks, but for the blank ones. -/
def solidLines (cs : List Char) : List (List Char) :=
  ((splitLines cs).map (trimBoth isSpace)).filter fun line => !line.isEmpty

/-- What a line decides: the verdict, that the search is over, or nothing. -/
def lineVerdict (line : List Char) : Option (Option Bool) :=
  if (textVerdict other line).isSome then some (textVerdict other line)
  else if carriesVerdict line then some none else none

/-- The last 120 characters. -/
def tail120 (cs : List Char) : List Char := cs.drop (cs.length - 120)

/-- `_parse_verdict`, on the text in lower case. -/
def lowVerdict (low : List Char) : Option Bool :=
  match (solidLines low).reverse.findSome? (lineVerdict other) with
  | some (some verdict) => some verdict
  | _ => textVerdict other (tail120 low)

/-- `_parse_verdict`. -/
def parseVerdict (lower : String → String) (content : String) : Option Bool :=
  lowVerdict other (lower content).toList

variable {other} {low line : List Char} {before after : List (List Char)}

/-- A word at the end of a text, after a character that belongs to no word. -/
theorem wordFrom_append {word : Char → Bool} {needle front : List Char} {c : Char}
    (nonempty : needle ≠ []) (apart : word c = false) (start : Option Char) :
    wordFrom word needle start (front ++ c :: needle) = true := by
  induction front generalizing start with
  | nil =>
    obtain ⟨d, ds, rfl⟩ := List.exists_cons_of_ne_nil nonempty
    simp [wordFrom, apart]
  | cons d front ih => rw [List.cons_append, wordFrom, ih, Bool.or_true]

theorem textVerdict_of_saysUnsafe (bad : saysUnsafe line) : textVerdict other line = some true := by
  rw [textVerdict, if_pos bad]

/-- A line that says `safe` only along with `unsafe` does not decide for safe. -/
theorem textVerdict_ne_false (notSafe : saysSafe other line → saysUnsafe line) :
    textVerdict other line ≠ some false := by
  unfold textVerdict
  split_ifs with bad safe
  · simp
  · exact absurd (notSafe safe) bad
  · simp

theorem lineVerdict_of_textVerdict {verdict : Bool}
    (decided : textVerdict other line = some verdict) :
    lineVerdict other line = some (some verdict) := by
  rw [lineVerdict, decided]
  rfl

/-- The search ends at a line that decides, or at one of the lines after it. -/
theorem findSome?_lineVerdict {verdict : Bool} (lines : solidLines low = before ++ line :: after)
    (decided : textVerdict other line = some verdict) :
    (solidLines low).reverse.findSome? (lineVerdict other) = some (some verdict) ∨
      ∃ later ∈ after, lineVerdict other later ≠ none ∧
        (solidLines low).reverse.findSome? (lineVerdict other) = lineVerdict other later := by
  rw [lines, List.reverse_append, List.reverse_cons, List.append_assoc, List.findSome?_append]
  cases later : after.reverse.findSome? (lineVerdict other) with
  | none =>
    rw [List.singleton_append, List.findSome?_cons, lineVerdict_of_textVerdict decided]
    exact .inl rfl
  | some value =>
    obtain ⟨l, member, equal⟩ := List.exists_of_findSome?_eq_some later
    exact .inr ⟨l, List.mem_reverse.mp member, by simp [equal], by rw [equal]; rfl⟩

/-- A line says `unsafe` and no later one says `safe` alone: only the text at the end can make
the verdict something else than unsafe, and only after a later line that carries a verdict. -/
theorem lowVerdict_of_unsafe (lines : solidLines low = before ++ line :: after)
    (bad : saysUnsafe line) (notSafe : ∀ later ∈ after, saysSafe other later → saysUnsafe later) :
    lowVerdict other low = some true ∨
      (∃ later ∈ after, carriesVerdict later ∧ saysUnsafe later = false) ∧
        lowVerdict other low = textVerdict other (tail120 low) := by
  rcases findSome?_lineVerdict lines (textVerdict_of_saysUnsafe bad) with
    here | ⟨later, member, something, found⟩
  · exact .inl (by rw [lowVerdict, here])
  -- The line that decides is this one or a later one, read from the end.
  · cases decided : textVerdict other later with
    | some verdict =>
      have safe := textVerdict_ne_false (notSafe later member)
      rw [lineVerdict_of_textVerdict decided] at found
      obtain rfl : verdict = true := by simpa [decided] using safe
      exact .inl (by rw [lowVerdict, found])
    | none =>
      have carries : carriesVerdict later := by
        by_contra none
        exact something (by rw [lineVerdict, decided, if_neg none]; rfl)
      have search : lineVerdict other later = some none := by
        rw [lineVerdict, decided, if_pos carries]
        rfl
      refine .inr ⟨⟨later, member, carries, ?_⟩, by rw [lowVerdict, found, search]⟩
      by_contra bad
      rw [Bool.not_eq_false] at bad
      rw [textVerdict_of_saysUnsafe bad] at decided
      cases decided

/-- The last line decides if it can. -/
theorem lowVerdict_of_last {verdict : Bool} (last : (solidLines low).getLast? = some line)
    (decided : textVerdict other line = some verdict) : lowVerdict other low = some verdict := by
  obtain ⟨before, lines⟩ := List.getLast?_eq_some_iff.mp last
  rcases findSome?_lineVerdict lines decided with here | ⟨later, none, -⟩
  · rw [lowVerdict, here]
  · cases none

theorem textVerdict_verdict_safe : textVerdict other "verdict: safe".toList = some false := by
  have safe : saysSafe other "verdict: safe".toList := by
    have split : "verdict: safe".toList = "verdict:".toList ++ ' ' :: "safe".toList := by decide
    rw [saysSafe, split]
    exact wordFrom_append (by decide) rfl none
  have good : ¬ saysUnsafe "verdict: safe".toList := by
    rw [saysUnsafe, includes, decide_eq_true_iff]
    intro inside
    exact absurd (inside.subset (by simp : 'u' ∈ "unsafe".toList)) (by simp)
  rw [textVerdict, if_neg good, if_pos safe]

/-- **The verdict of a judge.** A line of a verdict that says `unsafe`, with no later line that
says `safe` alone, makes the text unsafe if no later line carries a verdict without saying
`unsafe`, or the end of the text says `unsafe`; and the text is not safe unless its end says
so. The last line decides alone if it is a verdict. -/
theorem parseVerdict_law (other : Char → Bool) (lower : String → String) (content : String) :
    (∀ before line after, solidLines (lower content).toList = before ++ line :: after →
      carriesVerdict line → saysUnsafe line →
      (∀ later ∈ after, saysSafe other later → saysUnsafe later) →
        ((∀ later ∈ after, carriesVerdict later → saysUnsafe later) ∨
            saysUnsafe (tail120 (lower content).toList) →
          parseVerdict other lower content = some true) ∧
        (saysSafe other (tail120 (lower content).toList) = false →
          parseVerdict other lower content ≠ some false)) ∧
    ((solidLines (lower content).toList).getLast? = some "verdict: safe".toList →
      parseVerdict other lower content = some false) ∧
    ((solidLines (lower content).toList).getLast? = some "verdict: unsafe".toList →
      parseVerdict other lower content = some true) := by
  -- The last lines with a verdict first; the end of the text is asked only if none decides.
  refine ⟨fun before line after lines _ bad notSafe => ?_, fun last => ?_, fun last => ?_⟩
  · rcases lowVerdict_of_unsafe lines bad notSafe with yes | ⟨⟨later, member, carries, none⟩, tail⟩
    · exact ⟨fun _ => yes, fun _ => by rw [parseVerdict, yes]; simp⟩
    · refine ⟨fun ends => ?_, fun unsure => ?_⟩
      · rcases ends with all | ends
        · rw [all later member carries] at none
          cases none
        · rw [parseVerdict, tail, textVerdict_of_saysUnsafe ends]
      · rw [parseVerdict, tail]
        exact textVerdict_ne_false fun safe => absurd safe (by simp [unsure])
  · exact lowVerdict_of_last last textVerdict_verdict_safe
  · refine lowVerdict_of_last last (textVerdict_of_saysUnsafe ?_)
    rw [saysUnsafe, includes, decide_eq_true_iff]
    exact ⟨"verdict: ".toList, [], by simp⟩

/-- A verdict of safe after one of unsafe is the one that is read. -/
theorem parseVerdict_unsafe_safe :
    (∃ line ∈ solidLines (asciiLower "VERDICT: unsafe\nVERDICT: safe").toList,
      carriesVerdict line ∧ saysUnsafe line) ∧
    parseVerdict (fun _ => false) asciiLower "VERDICT: unsafe\nVERDICT: safe" = some false := by
  decide +kernel

end Verdict

end AgentLabs.GuardLab
