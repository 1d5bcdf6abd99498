import AgentLabs.BusinessLab.Policy
import AgentLabs.BusinessLab.Episodes
import Mathlib.Data.List.Chain

/-!
# The record of an episode

The harness keeps the slices of events, the snapshots and the numbers of the turns by
hand, around a driver that may make any calls and fail anywhere. The record it returns is
a partition: every event belongs to the turn that lists it, and the states of the turns
make a chain from the first snapshot to the last.

A driver is a function of the request and of the environment, which carries the number
of the turn and everything that was called so far. So one function can behave in every
turn as it likes.

## Main definitions

* `ByCalls`: a driver that acts through the environment's calls
* `RecordsTurn`: a turn and the events it lists
* `Follows`: a turn and the next one
* `EpisodeRecord`: what the artifact of an episode looks like

## Main results

* `kept_runTurn`, `kept_runTurns`: one turn, and the loop of turns
* `episodeRecord_executeEpisode`: every artifact is such a record
-/

namespace AgentLabs.BusinessLab

open Math Text Environment

/-- The driver acts through calls only, however it ends. -/
def ByCalls (invoke : Request → Script Response) : Prop :=
  ∀ request env, ∃ calls, (invoke request env).2 = env.runCalls calls

/-- The budget of turns is one `execute_episode` accepts. -/
def ValidBudget (followups : List Followup) (maxTurns : ℕ) : Prop :=
  1 ≤ maxTurns ∧ followups.length + 1 ≤ maxTurns

/-- The turn was driven from the state it starts in to the state it ends in, and lists
these events. It has no response if the driver raised. -/
structure RecordsTurn (invoke : Request → Script Response) (turn : TurnRecord)
    (events : List Event) :
    Prop where
  listed : turn.eventIds = events.map fun e => e.stamp.eventId
  numbered : ∀ e ∈ events, e.turnIndex = turn.turnIndex
  driven : ∃ before : Environment, before.snapshot = turn.initialState ∧
    (invoke turn.request before).1.toOption = turn.response ∧
      (invoke turn.request before).2.snapshot = turn.finalState

/-- The turn comes after the other: it starts where that one ended, with the follow-up
that one's response asked for. -/
structure Follows (followups : List Followup) (turn next : TurnRecord) : Prop where
  numbered : next.turnIndex = turn.turnIndex + 1
  linked : turn.finalState = next.initialState
  asked : ∃ followup response, followups[turn.turnIndex - 1]? = some followup ∧
    turn.response = some response ∧ response.kind = followup.whenResponse ∧
      next.request = followup.request

/-- What the artifact of an episode looks like. -/
structure EpisodeRecord (invoke : Request → Script Response) (request : Request) (fixture : Fixture)
    (followups : List Followup) (maxTurns : ℕ) (artifact : Artifact) : Prop where
  parts : ∃ parts : List (List Event), artifact.events = parts.flatten ∧
    List.Forall₂ (RecordsTurn invoke) artifact.turns parts
  ids : artifact.turns.flatMap TurnRecord.eventIds = artifact.events.map fun e => e.stamp.eventId
  first : ∀ turn ∈ artifact.turns.head?,
    turn.turnIndex = 1 ∧ turn.request = request ∧ turn.initialState = artifact.initialState
  chain : artifact.turns.IsChain (Follows followups)
  last : ∀ turn ∈ artifact.turns.getLast?, artifact.finalState = some turn.finalState ∧
    artifact.request = turn.request ∧ artifact.response = turn.response
  count : artifact.turns.length ≤ min maxTurns (1 + followups.length)
  completed : artifact.executionStatus = .completed ↔
    ValidBudget followups maxTurns ∧ (Environment.ofFixture fixture).isSome ∧
      ∀ turn ∈ artifact.turns, turn.response.isSome

/-! ### Events -/

/-- A call adds at most one event, of the present turn. -/
theorem events_call (env : Environment) (c : Call) :
    (env.call c).2.turnIndex = env.turnIndex ∧ ∃ more, (env.call c).2.events = env.events ++ more ∧
      ∀ e ∈ more, e.turnIndex = env.turnIndex := by
  rcases env.call_cases c with ⟨-, same⟩ | ⟨-, reply, env', -, path, same⟩
  · rw [same]
    exact ⟨rfl, [], by simp⟩
  · rw [same]
    exact ⟨path.frame.turnIndex, [env.eventOf c (recorded reply)], rfl, by simp [eventOf]⟩

theorem events_runCalls (env : Environment) (calls : List Call) :
    (env.runCalls calls).turnIndex = env.turnIndex ∧
      ∃ more, (env.runCalls calls).events = env.events ++ more ∧
        ∀ e ∈ more, e.turnIndex = env.turnIndex := by
  induction calls generalizing env with
  | nil => exact ⟨rfl, [], by simp [runCalls]⟩
  | cons c rest ih =>
    obtain ⟨turn, first, events, ofTurn⟩ := events_call env c
    obtain ⟨turn', later, events', ofTurn'⟩ := ih (env.call c).2
    refine ⟨turn'.trans turn, first ++ later, ?_, fun e listed => ?_⟩
    · rw [← List.append_assoc, ← events]
      exact events'
    · rcases List.mem_append.mp listed with earlier | after
      · exact ofTurn e earlier
      · exact (ofTurn' e after).trans turn

/-! ### One turn -/

section Turns

variable {invoke : Request → Script Response} {first : Environment} {request : Request}
  {followups : List Followup} {s : EpisodeState}

/-- What one turn adds to the episode. -/
structure Added (invoke : Request → Script Response) (s s' : EpisodeState) (turn : TurnRecord)
    (more : List Event) : Prop where
  turns : s'.turns = s.turns ++ [turn]
  events : s'.env.events = s.env.events ++ more
  recorded : RecordsTurn invoke turn more
  current : s'.current = s.current
  request : turn.request = s.current
  initial : turn.initialState = s.env.snapshot
  final : turn.finalState = s'.env.snapshot
  response : s'.response = turn.response
  failed : s'.error.isSome ↔ turn.response = none

theorem added_runTurn (byCalls : ByCalls invoke) (index : ℕ) (s : EpisodeState) :
    ∃ turn events, turn.turnIndex = index + 1 ∧
      Added invoke s (runTurn invoke index s) turn events := by
  let before : Environment := { s.env with turnIndex := index + 1 }
  obtain ⟨calls, ran⟩ := byCalls s.current before
  obtain ⟨-, more, events, ofTurn⟩ := events_runCalls before calls
  rw [← ran] at events
  have slice : (invoke s.current before).2.events.drop before.events.length = more := by
    rw [events, List.drop_left]
  refine ⟨_, more, rfl, ⟨rfl, events, ⟨?_, ofTurn, before, rfl, rfl, rfl⟩, rfl, rfl, rfl, rfl, rfl,
    ?_⟩⟩
  · exact congrArg (List.map fun e => e.stamp.eventId) slice
  · simp only [runTurn]
    cases (invoke s.current { s.env with turnIndex := index + 1 }).1 <;> simp [Except.toOption]

/-- What holds of the episode between two turns. -/
structure Kept (invoke : Request → Script Response) (first : Environment) (request : Request)
    (followups : List Followup) (s : EpisodeState) : Prop where
  parts : ∃ parts : List (List Event), s.env.events = parts.flatten ∧
    List.Forall₂ (RecordsTurn invoke) s.turns parts
  numbered : ∀ turn ∈ s.turns.getLast?, turn.turnIndex = s.turns.length
  first : ∀ turn ∈ s.turns.head?,
    turn.turnIndex = 1 ∧ turn.request = request ∧ turn.initialState = first.snapshot
  chain : s.turns.IsChain (Follows followups)
  last : ∀ turn ∈ s.turns.getLast?, s.env.snapshot = turn.finalState ∧
    s.current = turn.request ∧ s.response = turn.response
  count : s.turns.length ≤ 1 + followups.length
  failed : s.error.isSome ↔ ∃ turn ∈ s.turns, turn.response = none

/-- The next turn is the first one, or one whose input was asked for. -/
inductive Due (first : Environment) (request : Request) (followups : List Followup)
    (s : EpisodeState) : EpisodeState → Prop
  | first (empty : s.turns = []) (env : s.env = first) (current : s.current = request) :
      Due first request followups s s
  | followup {input : Followup} {response : Response} {index : ℕ}
      (count : s.turns.length = index + 1)
      (input_eq : followups[index]? = some input) (answered : s.response = some response)
      (asks : response.kind = input.whenResponse) :
      Due first request followups s { s with current := input.request }

/-- A turn that was due keeps the record. -/
theorem kept_runTurn (byCalls : ByCalls invoke) (kept : Kept invoke first request followups s)
    (fine : s.error = none) {next : EpisodeState} (due : Due first request followups s next) :
    Kept invoke first request followups (runTurn invoke s.turns.length next) := by
  obtain ⟨turn, events, number, added⟩ := added_runTurn byCalls s.turns.length next
  set s' := runTurn invoke s.turns.length next
  have turns : s'.turns = s.turns ++ [turn] := by
    cases due <;> exact added.turns
  have log : s'.env.events = s.env.events ++ events := by
    cases due <;> exact added.events
  have initial : turn.initialState = s.env.snapshot := by
    cases due <;> exact added.initial
  have answeredAll : ∀ turn ∈ s.turns, turn.response ≠ none := by
    intro turn listed raised
    have failed := kept.failed.mpr ⟨turn, listed, raised⟩
    rw [fine] at failed
    exact absurd failed (by decide)
  refine { parts := ?_, numbered := ?_, first := ?_, chain := ?_, last := ?_, count := ?_
           failed := ?_ }
  · obtain ⟨parts, all, each⟩ := kept.parts
    refine ⟨parts ++ [events], ?_, ?_⟩
    · rw [log, all, List.flatten_append, List.flatten_singleton]
    · rw [turns]
      exact List.rel_append each (.cons added.recorded .nil)
  · intro last isLast
    rw [turns, List.getLast?_concat, Option.mem_some_iff] at isLast
    rw [← isLast, number, turns, List.length_append, List.length_singleton]
  · intro head isHead
    rw [turns] at isHead
    cases due with
    | first empty env current =>
      rw [empty, List.nil_append, List.head?_cons, Option.mem_some_iff] at isHead
      rw [← isHead]
      refine ⟨by rw [number, empty, List.length_nil], added.request.trans current, ?_⟩
      rw [initial, env]
    | followup count =>
      have nonempty : s.turns ≠ [] := by
        intro empty
        rw [empty] at count
        exact absurd count (by simp)
      rw [List.head?_append_of_ne_nil _ nonempty] at isHead
      exact kept.first head isHead
  · rw [turns]
    refine List.isChain_append.mpr ⟨kept.chain, List.isChain_singleton _, ?_⟩
    intro last isLast next' isNext
    rw [List.head?_cons, Option.mem_some_iff] at isNext
    subst isNext
    have numbered := kept.numbered last isLast
    obtain ⟨state, -, response⟩ := kept.last last isLast
    refine ⟨by rw [number, numbered], by rw [initial, state], ?_⟩
    cases due with
    | first empty =>
      rw [empty] at isLast
      exact absurd isLast (by simp)
    | followup count input_eq answered asks =>
      refine ⟨_, _, ?_, response.symm.trans answered, asks, added.request⟩
      rw [numbered, count, Nat.add_sub_cancel, input_eq]
  · intro last isLast
    rw [turns, List.getLast?_concat, Option.mem_some_iff] at isLast
    subst isLast
    exact ⟨added.final.symm, added.current.trans added.request.symm, added.response⟩
  · rw [turns, List.length_append, List.length_singleton]
    cases due with
    | first empty => simp [empty]
    | followup count input_eq =>
      -- The follow-up that was used is one of the list.
      have listed := (List.getElem?_eq_some_iff.mp input_eq).1
      omega
  · rw [added.failed, turns]
    constructor
    · intro raised
      exact ⟨turn, by simp, raised⟩
    · intro some
      obtain ⟨raised, listed, missing⟩ := some
      rcases List.mem_append.mp listed with earlier | last
      · exact absurd missing (answeredAll raised earlier)
      · rwa [List.mem_singleton.mp last] at missing

/-! ### The loop -/

/-- The loop keeps the record, and takes no more turns than it is given. -/
theorem kept_runTurns (byCalls : ByCalls invoke) (n index : ℕ)
    (kept : Kept invoke first request followups s) (count : s.turns.length = index)
    (start : index = 0 → s.env = first ∧ s.current = request) (fine : s.error = none) :
    Kept invoke first request followups (runTurns invoke followups n index s) ∧
      (runTurns invoke followups n index s).turns.length ≤ index + n := by
  induction n generalizing index s with
  | zero => exact ⟨kept, count.le⟩
  | succ n ih =>
    -- One turn is taken; the loop stops if it raised and goes on if not.
    have step : ∀ next, Due first request followups s next →
        Kept invoke first request followups (if (runTurn invoke index next).error.isSome then
            runTurn invoke index next
          else runTurns invoke followups n (index + 1) (runTurn invoke index next)) ∧
        (if (runTurn invoke index next).error.isSome then runTurn invoke index next
          else runTurns invoke followups n (index + 1) (runTurn invoke index next)).turns.length ≤
            index + (n + 1) := by
      intro next due
      have kept' := kept_runTurn byCalls kept fine due
      obtain ⟨turn, events, -, added⟩ := added_runTurn byCalls s.turns.length next
      rw [count] at kept' added
      have longer : (runTurn invoke index next).turns.length = index + 1 := by
        have same : next.turns = s.turns := by cases due <;> rfl
        rw [added.turns, List.length_append, List.length_singleton, same, count]
      split_ifs with failed
      · exact ⟨kept', by omega⟩
      · obtain ⟨all, short⟩ := ih (index + 1) kept' longer (fun none => absurd none (by omega))
          (Option.not_isSome_iff_eq_none.mp failed)
        exact ⟨all, by omega⟩
    unfold runTurns
    by_cases zero : index = 0
    · -- The first turn has the request of the caller.
      simp only [zero, if_true]
      obtain ⟨env, current⟩ := start zero
      have empty : s.turns = [] := List.length_eq_zero_iff.mp (count.trans zero)
      exact zero ▸ step s (.first empty env current)
    · have stopped : Kept invoke first request followups s ∧ s.turns.length ≤ index + (n + 1) :=
        ⟨kept, by omega⟩
      simp only [zero, if_false]
      -- Later turns need an input that is left and a response that asks for it.
      cases input_eq : followups[index - 1]? with
      | none => exact stopped
      | some input =>
        cases answered : s.response with
        | none => exact stopped
        | some response =>
          dsimp only
          split_ifs with asks
          · exact step { s with current := input.request }
              (.followup (by omega) input_eq answered asks)
          · exact stopped

end Turns

/-! ### The artifact -/

theorem eventIds_of_recorded {invoke : Request → Script Response} {turns : List TurnRecord}
    {parts : List (List Event)} (each : List.Forall₂ (RecordsTurn invoke) turns parts) :
    turns.flatMap TurnRecord.eventIds = parts.flatten.map fun e => e.stamp.eventId := by
  induction each with
  | nil => rfl
  | cons recorded _ ih =>
    rw [List.flatMap_cons, List.flatten_cons, List.map_append, ih, recorded.listed]

/-- An episode without a turn is a record if it is not completed. -/
theorem episodeRecord_unstarted (invoke : Request → Script Response) (request : Request)
    (fixture : Fixture) (followups : List Followup) (maxTurns : ℕ)
    (scenarioId release : String) (trial : ℕ) (errorType : String)
    (broken : ¬ (ValidBudget followups maxTurns ∧ (Environment.ofFixture fixture).isSome)) :
    EpisodeRecord invoke request fixture followups maxTurns
      (unstartedEpisode request scenarioId release trial errorType) where
  parts := ⟨[], rfl, .nil⟩
  ids := rfl
  first := by simp [unstartedEpisode]
  chain := .nil
  last := by simp [unstartedEpisode]
  count := Nat.zero_le _
  completed := by
    constructor
    · intro completed
      exact absurd completed (by simp [unstartedEpisode])
    · intro fine
      exact absurd ⟨fine.1, fine.2.1⟩ broken

/-- **The record of an episode is a partition**: for every driver that acts through the
environment's calls, however it answers and wherever it fails. -/
theorem episodeRecord_executeEpisode {invoke : Request → Script Response} (byCalls : ByCalls invoke)
    (request : Request) (fixture : Fixture) (followups : List Followup) (maxTurns : ℕ)
    (scenarioId release : String) (trial : ℕ) :
    EpisodeRecord invoke request fixture followups maxTurns
      (executeEpisode (some invoke) request fixture followups maxTurns scenarioId release
        trial) := by
  unfold executeEpisode
  split_ifs with short
  · -- The budget is refused before anything is loaded.
    apply episodeRecord_unstarted
    intro fine
    obtain ⟨⟨one, enough⟩, -⟩ := fine
    omega
  · have valid : ValidBudget followups maxTurns := by
      unfold ValidBudget
      omega
    cases loaded : Environment.ofFixture fixture with
    | none =>
      apply episodeRecord_unstarted
      rw [loaded]
      exact fun fine => absurd fine.2 (by decide)
    | some env =>
      dsimp only
      have noEvents : env.events = [] := (Environment.events_ofFixture loaded).1
      -- Nothing has happened before the first turn.
      have kept : Kept invoke env request followups { env, current := request } :=
        { parts := ⟨[], noEvents, .nil⟩
          numbered := by simp
          first := by simp
          chain := .nil
          last := by simp
          count := Nat.zero_le _
          failed := by simp }
      obtain ⟨last, short⟩ := kept_runTurns byCalls maxTurns 0 kept rfl (fun _ => ⟨rfl, rfl⟩) rfl
      refine { parts := last.parts, ids := ?_, first := last.first, chain := last.chain, last := ?_,
               count := ?_, completed := ?_ }
      · obtain ⟨parts, all, each⟩ := last.parts
        rw [all]
        exact eventIds_of_recorded each
      · intro turn isLast
        obtain ⟨state, current, response⟩ := last.last turn isLast
        exact ⟨congrArg some state, current, response⟩
      · rw [Nat.zero_add] at short
        exact le_min short last.count
      · have failed := last.failed
        generalize runTurns invoke followups maxTurns 0 { env, current := request } =
        ended at failed ⊢
        dsimp only
        rw [loaded]
        split_ifs with raised
        · obtain ⟨turn, listed, missing⟩ := failed.mp raised
          constructor
          · intro completed
            exact absurd completed (by decide)
          · intro fine
            have answered := fine.2.2 turn listed
            rw [missing] at answered
            exact absurd answered (by decide)
        · refine iff_of_true rfl ⟨valid, rfl, fun turn listed => ?_⟩
          by_contra missing
          exact raised (failed.mpr ⟨turn, listed, Option.not_isSome_iff_eq_none.mp missing⟩)

/-- A driver that looks at the order and then fails. -/
def lookThenRaise (_ : Request) : Script Response :=
  fun env => (.error .valueError, (env.call askPolicy).2)

theorem episodeRecord_executeEpisode_lookThenRaise :
    EpisodeRecord lookThenRaise cancelOrder oneOrder [⟨cancelOrder⟩] 2
      (executeEpisode (some lookThenRaise) cancelOrder oneOrder [⟨cancelOrder⟩] 2 "cancel"
        "baseline" 0) :=
  episodeRecord_executeEpisode (fun _ _ => ⟨[askPolicy], rfl⟩) _ _ _ _ _ _ _

/-- A fixture that lists its order twice, which the store refuses. -/
def doubledOrder : Fixture := { oneOrder with orders := [paidOrder, paidOrder] }

/-- An episode whose environment cannot be built is not completed, though no turn raised. -/
theorem not_completed_doubledOrder :
    ¬ ((executeEpisode (some lookThenRaise) cancelOrder doubledOrder [] 1 "cancel" "baseline"
          0).executionStatus = .completed ↔
        ValidBudget [] 1 ∧ ∀ turn ∈ (executeEpisode (some lookThenRaise) cancelOrder doubledOrder []
          1 "cancel" "baseline" 0).turns, turn.response.isSome) := by
  have refused : executeEpisode (some lookThenRaise) cancelOrder doubledOrder []
      1 "cancel" "baseline"
      0 = unstartedEpisode cancelOrder "cancel" "baseline" 0 "IntegrityError" := rfl
  rw [refused]
  intro same
  have completed := same.mpr ⟨⟨le_rfl, le_rfl⟩, by simp [unstartedEpisode]⟩
  exact absurd completed (by simp [unstartedEpisode])

end AgentLabs.BusinessLab
