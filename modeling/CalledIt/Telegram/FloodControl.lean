import CalledIt.Lib.Run
import CalledIt.Telegram.SendQueue
import Mathlib.Data.List.Perm.Basic

/-!
# CalledIt.Telegram.FloodControl

Flood control of the send queue.

To one chat an event is a task that is added, the end of its sleep or the end of its task
(`ChatInput`), and what the queue does for the chat depends on the state of the chat alone
(`chats_step`).  Beside it a log is kept of what was started, and when.  The times that the chat
keeps are the ones of the log that still count, and a sleep ends when the oldest of them counts
no longer; so a window never holds more starts than the rate (`flood_control`).
-/

namespace CalledIt.Telegram

open Lib

/-! ## one chat -/

/-- What an event is to a chat. -/
inductive ChatInput
  | add (front : Bool) (task : SendTask)
  | wake
  | settled
  | other
  deriving DecidableEq

def ChatInput.added : ChatInput → List SendTask
  | add _ task => [task]
  | _ => []

namespace ChatState

def insert (state : ChatState) (front : Bool) (task : SendTask) : ChatState :=
  { state with tasks := if front then task :: state.tasks else state.tasks ++ [task] }

/-- The state behind the start of the first task, and that task. -/
def startNext (state : ChatState) (nowMs : Int) : ChatState × Option SendTask :=
  match state.tasks with
  | [] => ({ state with pump := .idle }, none)
  | task :: tasks => (⟨tasks, state.sentAt ++ [nowMs], .running⟩, some task)

def pumpOn (options : SendQueueOptions) (state : ChatState) (now : Readings) :
    ChatState × Option SendTask :=
  if state.tasks = [] then ({ state with pump := .idle }, none)
  else
    let (sentAt, wait) := msUntilSlot options state.sentAt now.slot
    if 0 < wait then ({ state with sentAt, pump := .sleeping }, none)
    else startNext { state with sentAt } now.start

def next (options : SendQueueOptions) (state : ChatState) (now : Readings) :
    ChatInput → ChatState × Option SendTask
  | .add front task =>
      if state.pump = .idle then (state.insert front task).pumpOn options now
      else (state.insert front task, none)
  | .wake => if state.pump = .sleeping then state.startNext now.start else (state, none)
  | .settled => if state.pump = .running then state.pumpOn options now else (state, none)
  | .other => (state, none)

end ChatState

namespace SendQueue

def chatInput (options : SendQueueOptions) (queue : SendQueue) (event : QueueEvent)
    (chatId : Int) : ChatInput :=
  match event.input with
  | .enqueue chatId' id => if chatId = chatId' then .add false (.send id) else .other
  | .enqueueInteractive chatId' id => if chatId = chatId' then .add true (.send id) else .other
  | .enqueueCardEdit key _ true =>
      if chatId = key.1 ∧ queue.queuedUrgentEdits key = none then .add true (.urgentEdit key.2)
      else .other
  | .enqueueCardEdit key version false =>
      if chatId = key.1 ∧ queue.deferredEdits key = none ∧
          (queue.lastEditAt key).all fun last => options.collapseMs ≤ event.now.edit - last then
        .add false (.edit key.2 version)
      else .other
  | .timer key =>
      match queue.deferredEdits key with
      | some version => if chatId = key.1 then .add false (.edit key.2 version) else .other
      | none => .other
  | .wake chatId' => if chatId = chatId' then .wake else .other
  | .settled chatId' _ => if chatId = chatId' then .settled else .other

section

variable {options : SendQueueOptions} (queue : SendQueue) (chatId chatId' : Int) (now : Readings)

theorem chats_startNext (nowMs : Int) : (queue.startNext chatId nowMs).1.chats chatId' =
    if chatId' = chatId then ((queue.chats chatId).startNext nowMs).1 else queue.chats chatId' := by
  rw [startNext, ChatState.startNext]
  cases (queue.chats chatId).tasks with
  | nil => simp
  | cons task tasks => cases task <;> simp [start]

theorem chats_pumpOn : (pumpOn options queue chatId now).1.chats chatId' =
    if chatId' = chatId then ((queue.chats chatId).pumpOn options now).1
    else queue.chats chatId' := by
  rw [pumpOn, ChatState.pumpOn]
  dsimp only
  split
  · simp
  · split
    · simp
    · rw [chats_startNext]
      by_cases hchat : chatId' = chatId <;> simp [hchat]

/-- A chat that a task is added to. -/
theorem chats_add {queue' : SendQueue} {front : Bool} {task : SendTask}
    (h : ∀ chatId', queue'.chats chatId' =
      if chatId' = chatId then (queue.chats chatId).insert front task else queue.chats chatId') :
    (pump options queue' chatId now).1.chats chatId' = ((queue.chats chatId').next options now
      (if chatId' = chatId then .add front task else .other)).1 := by
  have hpump : ((queue.chats chatId).insert front task).pump = (queue.chats chatId).pump := rfl
  have hsame : queue'.chats chatId = (queue.chats chatId).insert front task := by simp [h]
  rw [pump, hsame, hpump]
  by_cases hchat : chatId' = chatId
  · subst hchat
    by_cases hidle : (queue.chats chatId').pump = .idle <;>
      simp [hidle, chats_pumpOn, hsame, ChatState.next]
  · split <;> simp [hchat, chats_pumpOn, h, ChatState.next]

/-- The queue treats every chat by itself. -/
theorem chats_step (event : QueueEvent) : (queue.step options event).1.chats chatId =
    ((queue.chats chatId).next options event.now (queue.chatInput options event chatId)).1 := by
  obtain ⟨input, now⟩ := event
  cases input with
  | enqueue chatId' id =>
      exact chats_add queue chatId' chatId now fun _ => by simp [push, ChatState.insert]
  | enqueueInteractive chatId' id =>
      exact chats_add queue chatId' chatId now fun _ => by simp [unshift, ChatState.insert]
  | enqueueCardEdit key version urgent =>
      cases urgent with
      | true =>
          simp only [step, enqueueUrgentEdit, chatInput]
          cases hslot : queue.queuedUrgentEdits key with
          | some _ => simp [hslot, ChatState.next]
          | none =>
              simpa [hslot] using chats_add queue key.1 chatId now fun _ => by
                simp [unshift, ChatState.insert]
      | false =>
          simp only [step, enqueueOrdinaryEdit, chatInput]
          cases queue.deferredEdits key with
          | some _ => simp [ChatState.next]
          | none =>
              by_cases hopen : (queue.lastEditAt key).all fun last =>
                  options.collapseMs ≤ now.edit - last
              · simpa [hopen] using chats_add queue key.1 chatId now fun _ => by
                  simp [push, ChatState.insert]
              · simp [hopen, ChatState.next]
  | timer key =>
      simp only [step, fire, chatInput]
      cases queue.deferredEdits key with
      | none => rfl
      | some version =>
          exact chats_add queue key.1 chatId now fun _ => by simp [push, ChatState.insert]
  | wake chatId' =>
      simp only [step, chatInput]
      by_cases hchat : chatId = chatId' <;>
        by_cases hpump : (queue.chats chatId').pump = .sleeping <;>
          simp [hchat, hpump, chats_startNext, ChatState.next]
  | settled chatId' failed =>
      simp only [step, chatInput]
      by_cases hchat : chatId = chatId' <;>
        by_cases hpump : (queue.chats chatId').pump = .running <;>
          simp [hchat, hpump, chats_pumpOn, ChatState.next]

end

end SendQueue

/-! ## the log -/

/-- When a sleep may end, what was added to a chat, what was started and when, and how many of
these have ended. -/
structure ChatLog where
  wakesAt : Int
  added : List SendTask
  started : List SendTask
  startedAt : List Int
  ended : Nat

def ChatLog.next (options : SendQueueOptions) (log : ChatLog) (state : ChatState) (now : Readings)
    (input : ChatInput) : ChatLog :=
  let after := state.next options now input
  { wakesAt :=
      if state.pump ≠ .sleeping ∧ after.1.pump = .sleeping then
        now.slot + (msUntilSlot options state.sentAt now.slot).2
      else log.wakesAt
    added := log.added ++ input.added
    started := log.started ++ after.2.toList
    startedAt := log.startedAt ++ after.2.toList.map fun _ => now.start
    ended := if input = .settled then log.ended + 1 else log.ended }

/-- A queue that is watched: the last reading of the clock and the log of every chat. -/
structure WatchedQueue where
  queue : SendQueue
  clock : Int
  logs : Int → ChatLog

namespace WatchedQueue

def new (clock : Int) : WatchedQueue := ⟨.new, clock, fun _ => ⟨clock, [], [], [], 0⟩⟩

def next (options : SendQueueOptions) (watched : WatchedQueue) (event : QueueEvent) :
    WatchedQueue where
  queue := (watched.queue.step options event).1
  clock := event.now.start
  logs chatId := (watched.logs chatId).next options (watched.queue.chats chatId) event.now
    (watched.queue.chatInput options event chatId)

/-- The clock does not go back, a sleep lasts as long as was asked for, and only a task that was
started comes to its end. -/
structure Step (options : SendQueueOptions) (watched : WatchedQueue) (event : QueueEvent)
    (watched' : WatchedQueue) : Prop where
  edit : watched.clock ≤ event.now.edit
  slot : event.now.edit ≤ event.now.slot
  start : event.now.slot ≤ event.now.start
  sleeps : ∀ chatId, event.input = .wake chatId →
    (watched.logs chatId).wakesAt ≤ event.now.start
  ends : ∀ chatId failed, event.input = .settled chatId failed →
    (watched.logs chatId).ended < (watched.logs chatId).started.length
  next : watched' = watched.next options event

end WatchedQueue

/-! ## a slot in the window -/

variable {options : SendQueueOptions} {now : Readings} {state : ChatState} {log : ChatLog}
  {clock nowMs wakesAt : Int} {times : List Int}

/-- The times of the window that ends with `t`. -/
def inWindow (t : Int) (times : List Int) : List Int :=
  times.filter fun sent => t - rateWindowMs < sent ∧ sent ≤ t

def Bounded (options : SendQueueOptions) (times : List Int) : Prop :=
  ∀ t, (inWindow t times).length ≤ options.ratePerMinute

/-- The times that still count at a reading. -/
def counting (nowMs : Int) (times : List Int) : List Int :=
  times.filter (nowMs - rateWindowMs < ·)

theorem counting_counting (h : clock ≤ nowMs) :
    counting nowMs (counting clock times) = counting nowMs times := by
  rw [counting, counting, List.filter_filter, counting]
  exact List.filter_congr fun t _ => by simp; omega

theorem length_counting_le (h : clock ≤ nowMs) :
    (counting nowMs times).length ≤ (counting clock times).length := by
  rw [← counting_counting h]
  exact List.length_filter_le ..

/-- One more start has room in every window if it has room in its own. -/
theorem Bounded.append (h : Bounded options times)
    (hroom : (counting nowMs times).length < options.ratePerMinute) :
    Bounded options (times ++ [nowMs]) := by
  intro t
  rw [inWindow, List.filter_append, List.length_append]
  by_cases hin : t - rateWindowMs < nowMs ∧ nowMs ≤ t
  · have hless : (inWindow t times).length ≤ (counting nowMs times).length := by
      have hwindow : inWindow t times = inWindow t (counting nowMs times) := by
        rw [inWindow, inWindow, counting, List.filter_filter]
        exact List.filter_congr fun sent _ => by simp; omega
      rw [hwindow]
      exact List.length_filter_le ..
    have hone : ([nowMs].filter fun sent => t - rateWindowMs < sent ∧ sent ≤ t).length ≤ 1 :=
      List.length_filter_le ..
    rw [← inWindow]
    omega
  · have hnone : ([nowMs].filter fun sent => t - rateWindowMs < sent ∧ sent ≤ t) = [] := by
      simpa using hin
    rw [hnone]
    exact h t

/-- There is a slot, or the pump sleeps until the oldest time counts no longer. -/
theorem msUntilSlot_cases (times : List Int) (nowMs : Int) (hrate : 1 ≤ options.ratePerMinute) :
    (counting nowMs times).length < options.ratePerMinute ∧
        msUntilSlot options times nowMs = (counting nowMs times, 0) ∨
      ∃ oldest rest, counting nowMs times = oldest :: rest ∧ nowMs - rateWindowMs < oldest ∧
        msUntilSlot options times nowMs =
          (counting nowMs times, oldest + rateWindowMs - nowMs) := by
  have hwindow : times.filter (nowMs - rateWindowMs < ·) = counting nowMs times := rfl
  simp only [msUntilSlot, hwindow]
  split
  · next hroom => exact .inl ⟨hroom, rfl⟩
  · next hfull =>
    cases htimes : counting nowMs times with
    | nil =>
        rw [htimes, List.length_nil] at hfull
        omega
    | cons oldest rest =>
        have hcounts : nowMs - rateWindowMs < oldest := by
          have hmem : oldest ∈ counting nowMs times := htimes ▸ List.mem_cons_self
          simpa using (List.mem_filter.mp hmem).2
        refine .inr ⟨oldest, rest, rfl, hcounts, ?_⟩
        exact congrArg (Prod.mk _) (Int.max_eq_right (by omega))

/-- When a sleep may end there is room. -/
theorem room_of_wait (hrate : 1 ≤ options.ratePerMinute)
    (h : 0 < (msUntilSlot options times clock).2)
    (hle : (counting clock times).length ≤ options.ratePerMinute)
    (hwake : clock + (msUntilSlot options times clock).2 ≤ nowMs) :
    (counting nowMs times).length < options.ratePerMinute := by
  rcases msUntilSlot_cases times clock hrate with ⟨-, hslot⟩ | ⟨oldest, rest, htimes, hcounts, hslot⟩
  · rw [hslot] at h
    exact absurd h (Int.lt_irrefl _)
  · rw [hslot] at hwake
    rw [htimes, List.length_cons] at hle
    have hold : ¬ nowMs - rateWindowMs < oldest := by
      dsimp only at hwake
      omega
    have hless : (counting nowMs times).length ≤ rest.length := by
      rw [← counting_counting (show clock ≤ nowMs by omega), htimes, counting,
        List.filter_cons_of_neg (by simpa using hold)]
      exact List.length_filter_le ..
    omega

/-! ## a chat over time -/

/-- What the log of a chat says of its state. -/
structure Logged (options : SendQueueOptions) (clock : Int) (state : ChatState) (log : ChatLog) :
    Prop where
  bounded : Bounded options log.startedAt
  past : ∀ sent ∈ log.startedAt, sent ≤ clock
  kept : ∀ nowMs, clock ≤ nowMs → counting nowMs state.sentAt = counting nowMs log.startedAt
  all : log.added.Perm (log.started ++ state.tasks)

/-- Where the pump is. -/
structure Pumping (options : SendQueueOptions) (state : ChatState) (log : ChatLog) : Prop where
  idle : state.pump = .idle → state.tasks = []
  asleep : state.pump = .sleeping → ∀ nowMs, log.wakesAt ≤ nowMs →
    (counting nowMs state.sentAt).length < options.ratePerMinute
  running : log.started.length = log.ended + if state.pump = .running then 1 else 0

theorem Logged.mono (h : Logged options clock state log) (hle : clock ≤ nowMs) :
    Logged options nowMs state log :=
  ⟨h.bounded, fun t ht => Int.le_trans (h.past t ht) hle,
    fun t ht => h.kept t (Int.le_trans hle ht), h.all⟩

variable {log' : ChatLog} {result : ChatState × Option SendTask}

/-- The log behind a step of the pump. -/
structure Logs (now : Readings) (log : ChatLog) (result : ChatState × Option SendTask)
    (log' : ChatLog) : Prop where
  added : log'.added = log.added
  started : log'.started = log.started ++ result.2.toList
  startedAt : log'.startedAt = log.startedAt ++ result.2.toList.map fun _ => now.start
  ended : log'.ended = log.ended

/-- A chat whose first task may be started. -/
theorem Logged.startNext (h : Logged options now.start state log)
    (hended : log.started.length = log.ended)
    (hroom : (counting now.start state.sentAt).length < options.ratePerMinute)
    (hlog : Logs now log (state.startNext now.start) log') :
    Logged options now.start (state.startNext now.start).1 log' ∧
      Pumping options (state.startNext now.start).1 log' := by
  obtain ⟨wakesAt, added, started, startedAt, ended⟩ := log'
  obtain ⟨rfl, rfl, rfl, rfl⟩ := hlog
  have hall := h.all
  rw [ChatState.startNext]
  cases htasks : state.tasks with
  | nil =>
      rw [htasks] at hall
      exact ⟨⟨by simpa using h.bounded, by simpa using h.past, by simpa using h.kept,
        by simpa using hall⟩, by simp, by simp, by simpa using hended⟩
  | cons task tasks =>
      rw [htasks] at hall
      rw [h.kept now.start (Int.le_refl _)] at hroom
      refine ⟨⟨h.bounded.append hroom, ?_, fun nowMs hnow => ?_, by simpa using hall⟩, by simp,
        by simp, by simpa using hended⟩
      · intro sent hsent
        rcases List.mem_append.mp hsent with hsent | hsent
        · exact h.past sent hsent
        · exact Int.le_of_eq (List.mem_singleton.mp hsent)
      · have hkept := h.kept nowMs hnow
        simp only [counting] at hkept
        simp [counting, hkept]

/-- A chat in which nothing was started. -/
theorem Logged.rest (h : Logged options now.start state log) (hlog : Logs now log (state, none) log')
    {sentAt : List Int} {pump : Pump}
    (hsent : ∀ nowMs, now.start ≤ nowMs → counting nowMs sentAt = counting nowMs state.sentAt) :
    Logged options now.start ⟨state.tasks, sentAt, pump⟩ log' := by
  obtain ⟨wakesAt, added, started, startedAt, ended⟩ := log'
  obtain ⟨rfl, rfl, rfl, rfl⟩ := hlog
  exact ⟨by simpa using h.bounded, by simpa using h.past,
    fun nowMs hnow => by simpa [hsent nowMs hnow] using h.kept nowMs hnow, by simpa using h.all⟩

theorem Logged.pumpOn (hrate : 1 ≤ options.ratePerMinute) (h : Logged options clock state log)
    (hslot : clock ≤ now.slot) (hstart : now.slot ≤ now.start)
    (hended : log.started.length = log.ended)
    (hlog : Logs now log (state.pumpOn options now) log')
    (hwakes : (state.pumpOn options now).1.pump = .sleeping →
      log'.wakesAt = now.slot + (msUntilSlot options state.sentAt now.slot).2) :
    Logged options now.start (state.pumpOn options now).1 log' ∧
      Pumping options (state.pumpOn options now).1 log' := by
  have hcount : (counting now.slot state.sentAt).length ≤ options.ratePerMinute := by
    have hwindow : counting now.slot log.startedAt = inWindow now.slot log.startedAt :=
      List.filter_congr fun sent hsent => by simp [Int.le_trans (h.past sent hsent) hslot]
    rw [h.kept _ hslot, hwindow]
    exact h.bounded _
  have hnow := h.mono (Int.le_trans hslot hstart)
  have htrim : ∀ nowMs, now.start ≤ nowMs →
      counting nowMs (counting now.slot state.sentAt) = counting nowMs state.sentAt :=
    fun nowMs hle => counting_counting (Int.le_trans hstart hle)
  rw [ChatState.pumpOn] at hlog hwakes ⊢
  split
  · next hempty =>
    rw [if_pos hempty] at hlog
    have hsame : log'.started = log.started := by simpa using hlog.started
    refine ⟨hnow.rest ⟨hlog.1, hlog.2, hlog.3, hlog.4⟩ fun _ _ => rfl, fun _ => hempty, by simp, ?_⟩
    simpa [hsame, hlog.ended] using hended
  · next htasks =>
    rw [if_neg htasks] at hlog hwakes
    rcases msUntilSlot_cases state.sentAt now.slot hrate with
      ⟨hroom, hfree⟩ | ⟨oldest, rest, htimes, hcounts, hwait⟩
    · rw [hfree] at hlog ⊢
      have hlogged : Logged options now.start
          { state with sentAt := counting now.slot state.sentAt } log :=
        ⟨hnow.bounded, hnow.past, fun nowMs hle => (htrim nowMs hle).trans (hnow.kept nowMs hle),
          hnow.all⟩
      refine hlogged.startNext hended ?_ (by simpa using hlog)
      rw [htrim now.start (Int.le_refl _)]
      exact Nat.lt_of_le_of_lt (length_counting_le hstart) hroom
    · have hpos : 0 < oldest + rateWindowMs - now.slot := by omega
      rw [hwait] at hlog hwakes ⊢
      simp only [if_pos hpos] at hlog hwakes ⊢
      have hsame : log'.started = log.started := by simpa using hlog.started
      refine ⟨hnow.rest ⟨hlog.1, hlog.2, hlog.3, hlog.4⟩ htrim, by simp, fun _ nowMs hle => ?_, ?_⟩
      · have hwakes := hwakes trivial
        rw [counting_counting (by omega)]
        exact room_of_wait hrate (by rw [hwait]; exact hpos) hcount (by rw [hwait]; omega)
      · simpa [hsame, hlog.ended] using hended

/-- An event that starts nothing and ends nothing. -/
theorem Logged.quiet (h : Logged options now.start state log) (hpump : Pumping options state log)
    {input : ChatInput} {tasks : List SendTask}
    (hnext : state.next options now input = ({ state with tasks := tasks }, none))
    (hinput : input ≠ .settled) (hall : (log.added ++ input.added).Perm (log.started ++ tasks))
    (hidle : state.pump = .idle → tasks = []) :
    Logged options now.start (state.next options now input).1 (log.next options state now input) ∧
      Pumping options (state.next options now input).1 (log.next options state now input) := by
  have hlog : log.next options state now input =
      { log with added := log.added ++ input.added } := by
    simp [ChatLog.next, hnext, hinput]
  rw [hlog, hnext]
  exact ⟨⟨h.bounded, h.past, h.kept, hall⟩, hidle, hpump.asleep, hpump.running⟩

/-- What one event does to a chat. -/
theorem Logged.next (hrate : 1 ≤ options.ratePerMinute) (h : Logged options clock state log)
    (hpump : Pumping options state log) (hslot : clock ≤ now.slot) (hstart : now.slot ≤ now.start)
    (input : ChatInput) (hsleeps : input = .wake → log.wakesAt ≤ now.start)
    (hends : input = .settled → log.ended < log.started.length) :
    Logged options now.start (state.next options now input).1 (log.next options state now input) ∧
      Pumping options (state.next options now input).1 (log.next options state now input) := by
  have hnow := h.mono (Int.le_trans hslot hstart)
  have hsame : (log.added ++ []).Perm (log.started ++ state.tasks) := by simpa using h.all
  cases input with
  | add front task =>
      have hall : (log.added ++ [task]).Perm (log.started ++ (state.insert front task).tasks) := by
        have hback := h.all.append_right [task]
        rw [List.append_assoc] at hback
        cases front with
        | false => exact hback
        | true => exact hback.trans ((List.perm_append_singleton task _).append_left _)
      by_cases hidle : state.pump = .idle
      · have hinsert : Logged options clock (state.insert front task)
            { log with added := log.added ++ [task] } := ⟨h.bounded, h.past, h.kept, hall⟩
        simp only [ChatLog.next, ChatState.next, if_pos hidle]
        exact hinsert.pumpOn hrate hslot hstart (by simpa [hidle] using hpump.running)
          ⟨rfl, rfl, rfl, by simp⟩ fun hsleep => if_pos ⟨by simp [hidle], hsleep⟩
      · exact hnow.quiet hpump (by rw [ChatState.next, if_neg hidle]; rfl) (by simp) hall
          fun h => absurd h hidle
  | wake =>
      by_cases hsleep : state.pump = .sleeping
      · simp only [ChatLog.next, ChatState.next, if_pos hsleep]
        exact hnow.startNext (by simpa [hsleep] using hpump.running)
          (hpump.asleep hsleep _ (hsleeps rfl)) ⟨List.append_nil _, rfl, rfl, by simp⟩
      · exact hnow.quiet hpump (by rw [ChatState.next, if_neg hsleep]) (by simp) hsame hpump.idle
  | settled =>
      have hrunning : state.pump = .running := by
        by_contra hne
        have hless := hends rfl
        rw [hpump.running, if_neg hne] at hless
        exact absurd hless (Nat.lt_irrefl _)
      have hended : Logged options clock state { log with ended := log.ended + 1 } :=
        ⟨h.bounded, h.past, h.kept, h.all⟩
      simp only [ChatLog.next, ChatState.next, if_pos hrunning]
      exact hended.pumpOn hrate hslot hstart (by simpa [hrunning] using hpump.running)
        ⟨List.append_nil _, rfl, rfl, by simp⟩ fun hsleep => if_pos ⟨by simp [hrunning], hsleep⟩
  | other => exact hnow.quiet hpump rfl (by simp) hsame hpump.idle

/-! ## every run -/

variable {queue : SendQueue} {event : QueueEvent} {chatId : Int}

theorem SendQueue.chatInput_eq_wake (h : queue.chatInput options event chatId = .wake) :
    event.input = .wake chatId := by
  unfold chatInput at h
  split at h <;> try split at h
  all_goals grind

theorem SendQueue.chatInput_eq_settled (h : queue.chatInput options event chatId = .settled) :
    ∃ failed, event.input = .settled chatId failed := by
  unfold chatInput at h
  split at h <;> try split at h
  all_goals grind

/-- In every run, each window of a chat holds no more starts than the rate, no more than one of
its tasks runs, and what was added to it is what was started and what waits; a pump that is not
at work has left nothing waiting. -/
theorem flood_control (hrate : 1 ≤ options.ratePerMinute) {events : List QueueEvent}
    {watched : WatchedQueue} (h : Run (WatchedQueue.Step options) (.new clock) events watched)
    (chatId : Int) :
    Bounded options (watched.logs chatId).startedAt ∧
      (watched.logs chatId).started.length ≤ (watched.logs chatId).ended + 1 ∧
      (watched.logs chatId).added.Perm
        ((watched.logs chatId).started ++ (watched.queue.chats chatId).tasks) ∧
      ((watched.queue.chats chatId).pump = .idle → (watched.queue.chats chatId).tasks = [] ∧
        (watched.logs chatId).added.Perm (watched.logs chatId).started) := by
  have hinv : Logged options watched.clock (watched.queue.chats chatId) (watched.logs chatId) ∧
      Pumping options (watched.queue.chats chatId) (watched.logs chatId) := by
    induction h with
    | refl =>
        exact ⟨⟨fun _ => Nat.zero_le _, by simp [WatchedQueue.new], fun _ _ => rfl, .nil⟩,
          fun _ => rfl, by simp [WatchedQueue.new, SendQueue.new], rfl⟩
    | @snoc watched _ event _ hrun hstep ih =>
        have hnext := ih.1.next hrate ih.2 (Int.le_trans hstep.edit hstep.slot) hstep.start
          (watched.queue.chatInput options event chatId)
          (fun hwake => hstep.sleeps chatId (SendQueue.chatInput_eq_wake hwake)) fun hsettled =>
            let ⟨failed, hinput⟩ := SendQueue.chatInput_eq_settled hsettled
            hstep.ends chatId failed hinput
        rw [← SendQueue.chats_step] at hnext
        rw [hstep.next]
        exact hnext
  obtain ⟨hlogged, hpumping⟩ := hinv
  refine ⟨hlogged.bounded, ?_, hlogged.all, fun hidle => ⟨hpumping.idle hidle, ?_⟩⟩
  · rw [hpumping.running]
    split <;> omega
  · have hall := hlogged.all
    rwa [hpumping.idle hidle, List.append_nil] at hall

namespace FloodSample

def once : SendQueueOptions := ⟨1, 0⟩

def sent : WatchedQueue := (WatchedQueue.new 0).next once ⟨.enqueue 7 1, ⟨0, 0, 0⟩⟩

def settled : WatchedQueue := sent.next once ⟨.settled 7 false, ⟨5, 5, 5⟩⟩

theorem run : Run (WatchedQueue.Step once) (.new 0)
    [⟨.enqueue 7 1, ⟨0, 0, 0⟩⟩, ⟨.settled 7 false, ⟨5, 5, 5⟩⟩] settled := by
  refine .snoc (.single (t := sent) ⟨by decide, by decide, by decide, nofun, nofun, rfl⟩)
    ⟨by decide, by decide, by decide, nofun, fun chatId failed h => ?_, rfl⟩
  cases h
  decide

end FloodSample

open FloodSample in
theorem flood_control_once :
    (settled.queue.chats 7).tasks = [] ∧ (settled.logs 7).added.Perm (settled.logs 7).started :=
  (flood_control (by decide) run 7).2.2.2 (by decide)

end CalledIt.Telegram
