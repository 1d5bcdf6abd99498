import AgentLabs.GuardLab.Input

/-!
# Marked tool results in later runs

A thread is invoked again and again with one middleware. Each run begins with the messages that
the runs before it have left, and it has scanned none of them: a tool result that is behind the
marker is an input again. Within a run it is scanned once, so a run puts at most one more marker
in front of it, and it does so exactly when the answer of the guard to the text behind the
marker is one that the policy changes tool results for.

So the marked version of a tool result stays in the thread if and only if no pass that goes on
gets such an answer for a result that is behind the marker already.

## Main definitions

* `ThreadEvent`, `thread`: the runs and turns of a thread
* `Replaced`, `MarkingStable`: tool results behind the marker, and that they stay
* `Remarks`: a pass that puts one more marker in front of a message

## Main results

* `ThreadKept.step`: what a step leaves of the messages
* `markingStable_iff`: when marking is stable
-/

namespace AgentLabs.GuardLab

open Math

/-! ### Threads -/

/-- What happens in a thread: it is invoked with some messages, or the run takes a turn. The
answer of a middleware that ends the run gets an id when it is added. -/
inductive ThreadEvent where
  | invoke (inputs : List Message)
  | turn (answerId : String) (turn : List Message)

/-- The messages that an event may add, with the answer of the middleware known by its id. -/
def ThreadEvent.added : ThreadEvent → List Message
  | .invoke inputs => inputs
  | .turn answerId more => ⟨some answerId, .other, .text ""⟩ :: more

/-- An event before which the middleware looks at the messages. -/
def ThreadEvent.isTurn : ThreadEvent → Bool
  | .invoke _ => false
  | .turn _ _ => true

/-- A message that has no id gets one. -/
def Message.named (answerId : String) (m : Message) : Message :=
  { m with id := some (m.id.getD answerId) }

/-- The result of a call of a tool. -/
def Message.isToolResult (m : Message) : Bool :=
  match m.kind with
  | .tool _ _ => true
  | _ => false

namespace InputRun

variable {σ ε : Type}

/-- A new run over the messages of the thread. -/
def resume (r : InputRun σ) (inputs : List Message) : InputRun σ where
  messages := addMessages r.messages inputs
  added := r.messages ++ inputs
  input := InputGuard.beforeAgent r.input

/-- What an event of the thread does. -/
def threadStep (g : InputGuard σ ε) (r : InputRun σ) : ThreadEvent → InputRun σ
  | .invoke inputs => r.resume inputs
  | .turn answerId turn =>
    { step g r turn with messages := (step g r turn).messages.map (Message.named answerId) }

/-- A thread that is not yet invoked. -/
def idle (input : InputState σ) : InputRun σ where
  messages := []
  added := []
  input := input
  ended := true

end InputRun

section

variable {σ ε : Type} (g : InputGuard σ ε) (input : InputState σ) (events : List ThreadEvent)

/-- The thread after its first events. -/
def thread (n : ℕ) : InputRun σ := stateAt (InputRun.threadStep g) (InputRun.idle input) events n

/-- A tool result that was in the thread is behind the marker. -/
def Replaced (n : ℕ) (m : Message) : Prop :=
  m.isToolResult ∧ (∃ j ≤ n, m ∈ (thread g input events j).messages) ∧
    g.marked m ∈ (thread g input events n).messages

/-- **Marking is stable.** A tool result that is behind the marker stays as it is. -/
def MarkingStable : Prop :=
  ∀ n k m, n ≤ k → Replaced g input events n m →
    g.marked m ∈ (thread g input events k).messages

/-- The middleware has the model called. -/
def GoesOn : Except ε (Option Update) → Prop
  | .ok update => ∀ some ∈ update, some.jumpToEnd = false
  | .error _ => False

/-- The scans of the next pass over the messages. -/
def nextScans (r : InputRun σ) : List Scan :=
  (g.beforeModel r.messages r.input).2.scans.drop r.input.scans.length

/-- The next pass goes on, and to the message at a position the guard gives an answer that the
policy changes tool results for. -/
def Remarks (r : InputRun σ) (i : ℕ) : Prop :=
  r.ended = false ∧ GoesOn (g.beforeModel r.messages r.input).1 ∧
    ∃ scan ∈ nextScans g r, scan.item.index = i ∧
      (resolveInputDecision scan.signal scan.item g.policy).action = "TRANSFORM"

end

/-! ### What a pass leaves of the messages -/

section

variable {σ ε : Type} {g : InputGuard σ ε} {m : Message} {i : ℕ}

/-- Who a message is from and by what it is known. -/
def Message.tags (m : Message) : Option String × Option String := (m.id, m.key)

theorem tags_marked (m : Message) : (g.marked m).tags = m.tags := by
  cases kind : m.kind <;> simp [Message.tags, InputGuard.marked, Message.key, kind]

/-- The marker makes a text longer. -/
theorem marked_marked_ne (m : Message) : g.marked (g.marked m) ≠ g.marked m := by
  intro same
  have content := congrArg (fun m => m.content.toText g.str) same
  simp only [InputGuard.marked, Content.toText] at content
  have length := congrArg String.length content
  simp only [String.length_append] at length
  have line : "\n".length = 1 := rfl
  omega

/-- What ends a run is the answer of the middleware. -/
theorem messages_of_jumpToEnd {items : List UntrustedInput} {updates : List Message}
    {s after : InputState σ} {update : Update}
    (h : g.scanItems items updates s = (.ok (some update), after))
    (ends : update.jumpToEnd = true) :
    ∃ decision, update.messages = [stopped decision] := by
  induction items generalizing updates s with
  | nil =>
    rw [InputGuard.scanItems] at h
    split_ifs at h with empty
    · cases h
    · cases h
      cases ends
  | cons item rest ih =>
    rw [InputGuard.scanItems] at h
    split at h
    · cases h
    · rename_i signal guard scanned
      -- Only the last of the three outcomes returns before the other items.
      rcases InputGuard.applyInputDecision_cases (resolveInputDecision signal item g.policy)
        item g.policy with ⟨-, same⟩ | ⟨-, same⟩ | same
      · rw [same] at h
        exact ih h
      · rw [same] at h
        exact ih h
      · rw [same] at h
        cases h
        exact ⟨_, rfl⟩

end

namespace Distinct

variable {messages all : List Message}

/-- Messages are distinct if their tags are among those of distinct messages. -/
theorem of_tags (h : Distinct all)
    (among : (messages.map Message.tags).Sublist (all.map Message.tags)) : Distinct messages where
  named m listed := by
    obtain ⟨m', listed', same⟩ := List.mem_map.mp (among.subset (List.mem_map_of_mem listed))
    obtain ⟨id, hasId, nonempty⟩ := h.named m' listed'
    exact ⟨id, (congrArg Prod.fst same).symm.trans hasId, nonempty⟩
  ids := by
    have ids := among.map Prod.fst
    rw [List.map_map, List.map_map] at ids
    exact ids.nodup h.ids
  keys := by
    have keys := among.filterMap Prod.snd
    rw [List.filterMap_map, List.filterMap_map] at keys
    exact keys.nodup h.keys

end Distinct

namespace InputGuard.Accounts

variable {σ ε : Type} {g : InputGuard σ ε} {added visible : List Message} {scanned : List String}
  {scans more : List Scan} {m : Message} {i : ℕ}

theorem tags_shown (scans : List Scan) (i : ℕ) (m : Message) :
    (g.shown scans i m).tags = m.tags := by
  unfold shown
  split_ifs
  · exact tags_marked m
  · rfl

theorem map_tags (h : Accounts g added visible scanned scans) :
    visible.map Message.tags = added.map Message.tags := by
  refine List.ext_getElem? fun i => ?_
  have same : Message.tags ∘ g.shown scans i = Message.tags := funext (tags_shown scans i)
  rw [List.getElem?_map, List.getElem?_map, h.view, Option.map_map, same]

/-- Two scans of one position are scans of one input. -/
theorem item_eq (h : Accounts g added visible scanned scans) {first second : Scan}
    (listed : first ∈ scans) (listed' : second ∈ scans)
    (same : first.item.index = second.item.index) : first.item = second.item := by
  obtain ⟨m, here, inside⟩ := h.inputs first listed
  obtain ⟨m', here', inside'⟩ := h.inputs second listed'
  rw [same] at here inside
  obtain rfl := Option.some_inj.mp (here.symm.trans here')
  exact Option.some_inj.mp (inside.symm.trans inside')

/-- What later scans do to a message they do to it as it is shown. -/
theorem shown_append (h : Accounts g added visible scanned (scans ++ more)) (i : ℕ) (m : Message) :
    g.shown (scans ++ more) i m = g.shown more i (g.shown scans i m) := by
  by_cases later : ∃ scan ∈ more, scan.item.index = i ∧ scan.decision.action = "TRANSFORM"
  · obtain ⟨scan, listed, rfl, transformed⟩ := later
    -- An input is scanned once in a run, so the earlier scans have left the message as it is.
    have untouched : ¬∃ other ∈ scans, other.item.index = scan.item.index ∧
        other.decision.action = "TRANSFORM" := by
      rintro ⟨other, earlier, same, -⟩
      have once := h.once
      rw [List.map_append, List.nodup_append] at once
      have sameItem := h.item_eq (List.mem_append_left more earlier)
        (List.mem_append_right scans listed) same
      exact once.2.2 _ (List.mem_map_of_mem earlier) _ (List.mem_map_of_mem listed)
        (congrArg UntrustedInput.id sameItem)
    have earlier : g.shown scans scan.item.index m = m := if_neg untouched
    have after : g.shown more scan.item.index m = g.marked m :=
      if_pos ⟨scan, listed, rfl, transformed⟩
    rw [earlier, after]
    exact if_pos ⟨scan, List.mem_append_right scans listed, rfl, transformed⟩
  · have after (m : Message) : g.shown more i m = m := if_neg later
    rw [after]
    unfold shown
    refine if_congr ⟨?_, ?_⟩ rfl rfl
    · rintro ⟨scan, listed, here⟩
      rcases List.mem_append.mp listed with earlier | late
      · exact ⟨scan, earlier, here⟩
      · exact absurd ⟨scan, late, here⟩ later
    · rintro ⟨scan, listed, here⟩
      exact ⟨scan, List.mem_append_left more listed, here⟩

end InputGuard.Accounts

/-! ### One turn -/

namespace InputRun

variable {σ ε : Type} {g : InputGuard σ ε} {r next : InputRun σ} {turn : List Message} {i : ℕ}

/-- What a turn leaves of a run: it is over, maybe with an answer of the middleware, or it goes on
with one more marker before some tool results. -/
inductive Turned (g : InputGuard σ ε) (r : InputRun σ) (turn : List Message) (next : InputRun σ) :
    Prop
  | isOver (ended : next.ended = true) (unmarked : ∀ i, ¬Remarks g r i)
    (messages : next.messages = r.messages ∨ ∃ decision, next.messages =
    r.messages ++ [stopped decision])
  | goes {scans : List Scan} (live : next.ended = false)
    (accounts : g.Accounts next.added next.messages next.input.scanned scans)
    (tags : next.messages.map Message.tags = (r.messages ++ turn).map Message.tags)
    (remarked : ∀ i m, r.messages[i]? = some m → Remarks g r i →
      next.messages[i]? = some (g.marked m))
    (kept : ∀ i m, r.messages[i]? = some m → ¬Remarks g r i → next.messages[i]? = some m)

theorem addMessage_of_unnamed {messages : List Message} {m : Message} (unnamed : m.id = none) :
    addMessage messages m = messages ++ [m] := by
  induction messages with
  | nil => rfl
  | cons first rest ih =>
    have isNamed : ¬m.id.isSome := by simp [unnamed]
    rw [addMessage, if_neg fun last => isNamed last.2.1, ih, List.cons_append]

/-- The pass that a scan is made in goes on, so the run is not over after it. -/
theorem turned {scans : List Scan} (live : r.ended = false)
    (accounts : g.Accounts r.added r.messages r.input.scanned scans)
    (distinct : Distinct (r.added ++ turn)) : Turned g r turn (step g r turn) := by
  have passes := accounts.beforeModel distinct.of_append
  have ends : ∀ update after, g.beforeModel r.messages r.input = (.ok (some update), after) →
      update.jumpToEnd = true → ∃ decision, update.messages = [stopped decision] :=
    fun update after pass => messages_of_jumpToEnd pass
  have remarks : ∀ i, Remarks g r i ↔ GoesOn (g.beforeModel r.messages r.input).1 ∧
      ∃ scan ∈ nextScans g r, scan.item.index = i ∧
        (resolveInputDecision scan.signal scan.item g.policy).action = "TRANSFORM" :=
    fun i => and_iff_right live
  rw [nextScans] at remarks
  rw [step, if_neg (Bool.eq_false_iff.mp live)]
  generalize g.beforeModel r.messages r.input = outcome at passes ends remarks
  cases passes with
  | raised e after => exact .isOver rfl (fun i again => ((remarks i).mp again).1) (.inl rfl)
  | @ended update jumps after =>
    obtain ⟨decision, messages⟩ := ends update after rfl jumps
    dsimp only
    rw [if_pos jumps]
    refine .isOver rfl (fun i again => ?_) (.inr ⟨decision, ?_⟩)
    · exact Bool.false_ne_true ((((remarks i).mp again).1 update rfl).symm.trans jumps)
    · rw [messages]
      exact addMessage_of_unnamed rfl
  | @goes update after more goesOn accounts' logged calls kept done =>
    have called : Turned g r turn (callModel
        { r with messages := addMessages r.messages (InputGuard.messagesOf update), input := after }
        turn) := by
      have whole := accounts'.append distinct
      have fresh : addMessages (addMessages r.messages (InputGuard.messagesOf update)) turn =
          addMessages r.messages (InputGuard.messagesOf update) ++ turn := by
        refine addMessages_of_fresh ?_
        rw [List.map_append, accounts'.map_id, ← List.map_append]
        exact distinct.ids
      -- What is shown after the pass is what was shown before it, behind the new markers.
      have view : ∀ i m, r.messages[i]? = some m →
          (addMessages (addMessages r.messages (InputGuard.messagesOf update)) turn)[i]? =
            some (g.shown more i m) := by
        intro i m here
        have inside := (List.getElem?_eq_some_iff.mp here).1
        rw [accounts.length_eq, ← accounts'.length_eq] at inside
        rw [fresh, List.getElem?_append_left inside, accounts'.view]
        rw [accounts.view] at here
        obtain ⟨m', here', rfl⟩ := Option.map_eq_some_iff.mp here
        rw [here', Option.map_some, accounts'.shown_append]
      have marks : ∀ i, Remarks g r i ↔
          ∃ scan ∈ more, scan.item.index = i ∧ scan.decision.action = "TRANSFORM" := by
        intro i
        rw [remarks, and_iff_right (show GoesOn (ε := ε) (.ok update) from goesOn), logged,
          List.drop_left]
        refine exists_congr fun scan => and_congr_right fun listed => ?_
        rw [accounts'.decided scan (List.mem_append_right scans listed)]
      refine .goes live whole ?_ (fun i m here again => ?_) fun i m here once => ?_
      · rw [callModel, fresh, List.map_append, accounts'.map_tags, ← accounts.map_tags,
          ← List.map_append]
      · rw [callModel, view i m here, InputGuard.shown, if_pos ((marks i).mp again)]
      · rw [callModel, view i m here, InputGuard.shown, if_neg fun again =>
          once ((marks i).mpr again)]
    cases update with
    | none => exact called
    | some update =>
      dsimp only
      rw [if_neg (Bool.eq_false_iff.mp (goesOn update rfl))]
      exact called

end InputRun

/-! ### Whole threads -/

section

variable {σ ε : Type} {g : InputGuard σ ε} {input : InputState σ} {events : List ThreadEvent}
  {n k : ℕ} {r : InputRun σ} {e : ThreadEvent} {m : Message} {i : ℕ}

theorem map_named {messages : List Message} (distinct : Distinct messages) (answerId : String) :
    messages.map (Message.named answerId) = messages := by
  rw [List.map_congr_left (g := id), List.map_id]
  intro m listed
  obtain ⟨own, hasId, -⟩ := distinct.named m listed
  rw [Message.named, hasId, Option.getD_some, ← hasId, id_eq]

/-- What is kept after `n` events of a thread. -/
structure ThreadKept (g : InputGuard σ ε) (events : List ThreadEvent) (n : ℕ) (r : InputRun σ) :
    Prop where
  tags : (r.messages.map Message.tags).Sublist
    (((events.take n).flatMap ThreadEvent.added).map Message.tags)
  live : r.ended = false → ∃ scans, g.Accounts r.added r.messages r.input.scanned scans

namespace ThreadKept

theorem idle (input : InputState σ) : ThreadKept g events 0 (InputRun.idle input) where
  tags := List.nil_sublist _
  live live := by cases live

/-- What is added to the messages by an event are among the messages of the events. -/
theorem grown (h : ThreadKept g events n r) (here : events[n]? = some e) {more : List Message}
    (among : (more.map Message.tags).Sublist (e.added.map Message.tags)) :
    ((r.messages ++ more).map Message.tags).Sublist
      (((events.take (n + 1)).flatMap ThreadEvent.added).map Message.tags) := by
  rw [List.take_add_one, here, Option.toList_some, List.flatMap_append, List.flatMap_singleton,
    List.map_append, List.map_append]
  exact h.tags.append among

theorem distinct_take (distinct : Distinct (events.flatMap ThreadEvent.added)) (n : ℕ) :
    Distinct ((events.take n).flatMap ThreadEvent.added) := by
  rw [← List.take_append_drop n events, List.flatMap_append] at distinct
  exact distinct.of_append

theorem distinct (h : ThreadKept g events n r)
    (distinct : Distinct (events.flatMap ThreadEvent.added)) : Distinct r.messages :=
  (distinct_take distinct n).of_tags h.tags

open Classical in
/-- **One event** keeps what is kept, and leaves every message as it is or behind one more
marker. -/
theorem step (h : ThreadKept g events n r)
    (distinct : Distinct (events.flatMap ThreadEvent.added)) (here : events[n]? = some e) :
    ThreadKept g events (n + 1) (InputRun.threadStep g r e) ∧
      ∀ i m, r.messages[i]? = some m → (InputRun.threadStep g r e).messages[i]? =
        some (if e.isTurn ∧ Remarks g r i then g.marked m else m) := by
  have whole := distinct_take distinct (n + 1)
  cases e with
  | invoke inputs =>
    have grown := h.grown here (List.Sublist.refl _)
    have ids := (whole.of_tags grown).ids
    rw [InputRun.threadStep, InputRun.resume, ThreadEvent.added] at *
    rw [addMessages_of_fresh ids]
    refine ⟨⟨grown, fun _ => ⟨[], .start _⟩⟩, fun i m there => ?_⟩
    rw [if_neg fun turn => Bool.false_ne_true turn.1, ← there]
    exact List.getElem?_append_left (List.getElem?_eq_some_iff.mp there).1
  | turn answerId turn =>
    have named := map_named (h.distinct distinct) answerId
    -- A run that is over has its messages, and maybe an answer that gets its id here.
    have isOver {next : InputRun σ} (ended : next.ended = true) (unmarked : ∀ i, ¬Remarks g r i)
        (messages : next.messages = r.messages ∨
          ∃ decision, next.messages = r.messages ++ [stopped decision]) :
        ThreadKept g events (n + 1)
            { next with messages := next.messages.map (Message.named answerId) } ∧
          ∀ i m, r.messages[i]? = some m → (next.messages.map (Message.named answerId))[i]? =
            some (if (ThreadEvent.turn answerId turn).isTurn ∧
            Remarks g r i then g.marked m else m) := by
      have extends_ : ∃ more, next.messages.map (Message.named answerId) = r.messages ++ more ∧
          (more.map Message.tags).Sublist
            ((ThreadEvent.turn answerId turn).added.map Message.tags) := by
        rcases messages with same | ⟨decision, same⟩
        · exact ⟨[], by rw [same, named, List.append_nil], List.nil_sublist _⟩
        · refine ⟨[(stopped decision).named
            answerId], by rw [same, List.map_append, named]; rfl, ?_⟩
          exact (List.nil_sublist _).cons_cons _
      obtain ⟨more, same, among⟩ := extends_
      rw [same]
      refine ⟨⟨h.grown here among, fun live => absurd (ended.symm.trans live) (by decide)⟩,
        fun i m there => ?_⟩
      rw [if_neg fun again => unmarked i again.2, ← there]
      exact List.getElem?_append_left (List.getElem?_eq_some_iff.mp there).1
    rw [InputRun.threadStep]
    cases live : r.ended with
    | true =>
      rw [InputRun.step, if_pos live]
      exact isOver live (fun i again => Bool.false_ne_true (again.1.symm.trans live)) (.inl rfl)
    | false =>
      obtain ⟨scans, accounts⟩ := h.live live
      have among : (turn.map Message.tags).Sublist
          ((ThreadEvent.turn answerId turn).added.map Message.tags) := List.sublist_cons_self _ _
      have grown := h.grown here among
      have added : Distinct (r.added ++ turn) := by
        refine whole.of_tags ?_
        rwa [List.map_append, ← accounts.map_tags, ← List.map_append]
      cases InputRun.turned live accounts added with
      | isOver ended unmarked messages => exact isOver ended unmarked messages
      | goes live' accounts' tags remarked kept =>
        rw [map_named (whole.of_tags (tags ▸ grown))]
        refine ⟨⟨tags ▸ grown, fun _ => ⟨_, accounts'⟩⟩, fun i m there => ?_⟩
        split_ifs with again
        · exact remarked i m there again.2
        · exact kept i m there fun marks => again ⟨rfl, marks⟩

/-- What is kept is kept along the whole thread. -/
theorem thread (g : InputGuard σ ε) (input : InputState σ)
    (distinct : Distinct (events.flatMap ThreadEvent.added)) (n : ℕ) :
    ThreadKept g events n (thread g input events n) := by
  induction n with
  | zero => exact idle input
  | succ n ih =>
    cases here : events[n]? with
    | some e =>
      rw [GuardLab.thread, stateAt_succ here]
      exact (ih.step distinct here).1
    | none =>
      rw [GuardLab.thread, stateAt_succ_of_none here]
      refine ⟨?_, ih.live⟩
      rw [List.take_add_one, here, Option.toList_none, List.append_nil]
      exact ih.tags

end ThreadKept

theorem thread_succ (g : InputGuard σ ε) (input : InputState σ) (here : events[n]? = some e) :
    thread g input events (n + 1) = InputRun.threadStep g (thread g input events n) e :=
  stateAt_succ here

open Classical in
/-- A message stays at its position, as it is or behind one more marker. -/
theorem thread_view (distinct : Distinct (events.flatMap ThreadEvent.added))
    (here : events[n]? = some e) (there : (thread g input events n).messages[i]? = some m) :
    (thread g input events (n + 1)).messages[i]? =
      some (if e.isTurn ∧ Remarks g (thread g input events n) i then g.marked m else m) := by
  rw [thread_succ g input here]
  exact ((ThreadKept.thread g input distinct n).step distinct here).2 i m there

/-- **When marking is stable.** A tool result that is behind the marker stays as it is if and only
if no pass that goes on gets an answer for it that the policy changes tool results for. -/
theorem markingStable_iff (g : InputGuard σ ε) (input : InputState σ) (events : List ThreadEvent)
    (distinct : Distinct (events.flatMap ThreadEvent.added)) :
    MarkingStable g input events ↔ ∀ n e m i, events[n]? = some e → e.isTurn →
      Replaced g input events n m → (thread g input events n).messages[i]? = some (g.marked m) →
      ¬Remarks g (thread g input events n) i := by
  constructor
  · intro stable n e m i here turn replaced there again
    -- The step puts one more marker before the message, whose id no other message has.
    have after := thread_view distinct here there
    rw [if_pos ⟨turn, again⟩] at after
    obtain ⟨j, there'⟩ := List.mem_iff_getElem?.mp (stable n (n + 1) m (Nat.le_succ n) replaced)
    have ids := ((ThreadKept.thread g input distinct (n + 1)).distinct distinct).ids
    have inside := (List.getElem?_eq_some_iff.mp after).1
    have only : i = j := by
      refine (List.getElem?_inj (by rwa [List.length_map]) ids).mp ?_
      rw [List.getElem?_map, List.getElem?_map, after, there']
      rfl
    subst only
    exact marked_marked_ne m (Option.some_inj.mp (after.symm.trans there'))
  · intro once n k m later replaced
    obtain ⟨tool, ⟨j, before, listed⟩, now⟩ := replaced
    obtain ⟨i, there⟩ := List.mem_iff_getElem?.mp now
    -- No event of the stretch from `n` to `k` changes the message at the position.
    refine List.mem_of_getElem? (@stateAt_kept_until _ _ (InputRun.threadStep g)
      (InputRun.idle input) events (fun r => r.messages[i]? = some (g.marked m)) n k
      (fun p e since _ here there => ?_) later there)
    have same := thread_view distinct here there
    rw [if_neg fun again => once p e m i here again.1
      ⟨tool, ⟨j, before.trans since, listed⟩, List.mem_of_getElem? there⟩ there again.2] at same
    rwa [thread_succ g input here] at same

end

/-- The user asks twice in one thread, and the answer to the first question reads a document. -/
def askedTwice : List ThreadEvent :=
  [.invoke InputRun.askTurn, .turn "a2" InputRun.readTurn, .turn "a3" [],
    .invoke [⟨some "h2", .human, .text "more"⟩], .turn "a4" []]

theorem markingStable_iff_ignoreGuard :
    MarkingStable InputRun.ignoreGuard { guard := () } askedTwice := by
  have distinct : Distinct (askedTwice.flatMap ThreadEvent.added) :=
    ⟨by simp [askedTwice, ThreadEvent.added, InputRun.askTurn,
      InputRun.readTurn], by decide, by decide⟩
  refine (markingStable_iff _ _ _ distinct).mpr fun n e m i here turn replaced there again => ?_
  obtain ⟨-, -, scan, listed, rfl, transformed⟩ := again
  have passed : ∀ n ∈ [1, 4], ∀ scan ∈ nextScans InputRun.ignoreGuard
      (thread InputRun.ignoreGuard { guard := () } askedTwice n),
      (resolveInputDecision scan.signal scan.item InputRun.ignoreGuard.policy).action ≠
        "TRANSFORM" := by
    decide
  rcases n with _ | _ | _ | _ | _ | n
  · cases here; cases turn
  · exact passed 1 (by decide) scan listed transformed
  · -- The one input of this pass is the document, which is not behind the marker yet.
    have whole : nextScans InputRun.ignoreGuard
        (thread InputRun.ignoreGuard { guard := () } askedTwice 2) = [_] := rfl
    obtain rfl := List.mem_singleton.mp (whole ▸ listed)
    have document : (thread InputRun.ignoreGuard { guard := () } askedTwice 2).messages[2]? =
        some ⟨some "t1", .tool "call_1" (some "read_doc"), .text "ignore"⟩ := rfl
    have content := congrArg (fun m : Message => (m.content.toText fun _ => "").length)
      (Option.some_inj.mp (document.symm.trans there))
    simp only [InputGuard.marked, Content.toText, String.length_append] at content
    have marker : "ignore".length < InputRun.ignoreGuard.policy.transformMarker.length := by decide
    omega
  · cases here; cases turn
  · exact passed 4 (by decide) scan listed transformed
  · cases here

/-- A guard that takes every tool result for an instruction. -/
def alarmGuard : InputGuard Unit Unit where
  scan _ stage s :=
    (.ok { status := .ok, riskLabels := if stage = "tool_result" then ["injection"] else [] }, s)
  scope := ["user", "tool_result"]
  str _ := ""

theorem not_markingStable_alarmGuard :
    Distinct (askedTwice.flatMap ThreadEvent.added) ∧
      ¬MarkingStable alarmGuard { guard := () } askedTwice := by
  refine ⟨⟨by simp [askedTwice, ThreadEvent.added, InputRun.askTurn, InputRun.readTurn],
    by decide, by decide⟩, fun stable => ?_⟩
  let document : Message := ⟨some "t1", .tool "call_1" (some "read_doc"), .text "ignore"⟩
  have replaced : Replaced alarmGuard { guard := () } askedTwice 3 document :=
    ⟨rfl, ⟨2, by decide, List.mem_of_getElem? (show _[2]? = some document from rfl)⟩,
      List.mem_of_getElem? (show _[2]? = some (alarmGuard.marked document) from rfl)⟩
  -- After the second run the document is behind two markers.
  have texts : (alarmGuard.marked document).content.toText alarmGuard.str ∉
      (thread alarmGuard { guard := () } askedTwice 5).messages.map
        fun m => m.content.toText alarmGuard.str := by decide
  exact texts (List.mem_map_of_mem (stable 3 5 document (by decide) replaced))

end AgentLabs.GuardLab
