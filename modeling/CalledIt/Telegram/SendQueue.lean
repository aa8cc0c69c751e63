import CalledIt.Lib.Transducer
import Mathlib.Data.List.Basic
import Mathlib.Logic.Function.Basic

/-!
# CalledIt.Telegram.SendQueue

The outbound queue of each chat (`engine/src/bot/sendQueue.ts`).

An edit of a card waits in the queue of its chat, in an urgent slot of it or with a timer.  A
call and an event are one step, up to the next sleep of the pump or the start of its next task;
what a task calls while it starts comes as steps of its own.
-/

namespace CalledIt.Telegram

open Lib

/-! ## the queue -/

structure SendQueueOptions where
  ratePerMinute : Nat
  collapseMs : Int

def rateWindowMs : Int := 60000

/-- What waits in the queue of a chat.  An urgent edit is taken from its slot when it runs. -/
inductive SendTask
  | send (id : Nat)
  | edit (collapseKey : String) (version : Nat)
  | urgentEdit (collapseKey : String)
  deriving DecidableEq, Repr

/-- Where the pump of a chat is: it is running a task, or waiting for a slot to start one. -/
inductive Pump
  | idle
  | sleeping
  | running
  deriving DecidableEq, Repr

structure ChatState where
  tasks : List SendTask
  sentAt : List Int
  pump : Pump
  deriving DecidableEq, Repr

/-- A chat and the collapse key of a card in it. -/
abbrev EditKey := Int × String

structure SendQueue where
  chats : Int → ChatState
  lastEditAt : EditKey → Option Int
  deferredEdits : EditKey → Option Nat
  queuedUrgentEdits : EditKey → Option Nat

/-- A task that has been started. -/
inductive Started
  | send (chatId : Int) (id : Nat)
  | edit (key : EditKey) (version : Nat)
  deriving DecidableEq, Repr

namespace SendQueue

def new : SendQueue := ⟨fun _ => ⟨[], [], .idle⟩, fun _ => none, fun _ => none, fun _ => none⟩

def setChat (queue : SendQueue) (chatId : Int) (state : ChatState) : SendQueue :=
  { queue with chats := Function.update queue.chats chatId state }

/-- `state.tasks.push(task)`. -/
def push (queue : SendQueue) (chatId : Int) (task : SendTask) : SendQueue :=
  let state := queue.chats chatId
  queue.setChat chatId { state with tasks := state.tasks ++ [task] }

/-- `state.tasks.unshift(task)`. -/
def unshift (queue : SendQueue) (chatId : Int) (task : SendTask) : SendQueue :=
  let state := queue.chats chatId
  queue.setChat chatId { state with tasks := task :: state.tasks }

def setLastEdit (queue : SendQueue) (key : EditKey) (nowMs : Int) : SendQueue :=
  { queue with lastEditAt := Function.update queue.lastEditAt key (some nowMs) }

def setDeferred (queue : SendQueue) (key : EditKey) (version : Option Nat) : SendQueue :=
  { queue with deferredEdits := Function.update queue.deferredEdits key version }

def setUrgent (queue : SendQueue) (key : EditKey) (version : Option Nat) : SendQueue :=
  { queue with queuedUrgentEdits := Function.update queue.queuedUrgentEdits key version }

section

variable (queue : SendQueue) (key key' : EditKey) (chatId chatId' : Int)

@[simp] theorem chats_setChat (state : ChatState) :
    (queue.setChat chatId state).chats chatId' =
      if chatId' = chatId then state else queue.chats chatId' := Function.update_apply ..

@[simp] theorem deferred_setChat (state : ChatState) :
    (queue.setChat chatId state).deferredEdits = queue.deferredEdits := rfl

@[simp] theorem urgent_setChat (state : ChatState) :
    (queue.setChat chatId state).queuedUrgentEdits = queue.queuedUrgentEdits := rfl

section

variable (task : SendTask)

include task

@[simp] theorem tasks_push :
    ((queue.push chatId task).chats chatId').tasks =
      if chatId' = chatId then (queue.chats chatId).tasks ++ [task]
      else (queue.chats chatId').tasks := by
  rw [push, chats_setChat, apply_ite ChatState.tasks]

@[simp] theorem deferred_push :
    (queue.push chatId task).deferredEdits = queue.deferredEdits := rfl

@[simp] theorem urgent_push :
    (queue.push chatId task).queuedUrgentEdits = queue.queuedUrgentEdits := rfl

@[simp] theorem tasks_unshift :
    ((queue.unshift chatId task).chats chatId').tasks =
      if chatId' = chatId then task :: (queue.chats chatId).tasks
      else (queue.chats chatId').tasks := by
  rw [unshift, chats_setChat, apply_ite ChatState.tasks]

@[simp] theorem deferred_unshift :
    (queue.unshift chatId task).deferredEdits = queue.deferredEdits := rfl

@[simp] theorem urgent_unshift :
    (queue.unshift chatId task).queuedUrgentEdits = queue.queuedUrgentEdits := rfl

end

@[simp] theorem chats_setLastEdit (nowMs : Int) :
    (queue.setLastEdit key nowMs).chats = queue.chats := rfl

@[simp] theorem deferred_setLastEdit (nowMs : Int) :
    (queue.setLastEdit key nowMs).deferredEdits = queue.deferredEdits := rfl

@[simp] theorem urgent_setLastEdit (nowMs : Int) :
    (queue.setLastEdit key nowMs).queuedUrgentEdits = queue.queuedUrgentEdits := rfl

section

variable (version : Option Nat)

include version

@[simp] theorem chats_setDeferred :
    (queue.setDeferred key version).chats = queue.chats := rfl

@[simp] theorem deferred_setDeferred :
    (queue.setDeferred key version).deferredEdits key' =
      if key' = key then version else queue.deferredEdits key' := Function.update_apply ..

@[simp] theorem urgent_setDeferred :
    (queue.setDeferred key version).queuedUrgentEdits = queue.queuedUrgentEdits := rfl

@[simp] theorem chats_setUrgent :
    (queue.setUrgent key version).chats = queue.chats := rfl

@[simp] theorem deferred_setUrgent :
    (queue.setUrgent key version).deferredEdits = queue.deferredEdits := rfl

@[simp] theorem urgent_setUrgent :
    (queue.setUrgent key version).queuedUrgentEdits key' =
      if key' = key then version else queue.queuedUrgentEdits key' := Function.update_apply ..

end

end

end SendQueue

/-! ## the pump -/

/-- The times of the window, and how long it takes until there is a slot in it. -/
def msUntilSlot (options : SendQueueOptions) (sentAt : List Int) (nowMs : Int) : List Int × Int :=
  let inWindow := sentAt.filter (nowMs - rateWindowMs < ·)
  if inWindow.length < options.ratePerMinute then (inWindow, 0)
  else
    match inWindow.head? with
    | none => (inWindow, 0)
    | some oldest => (inWindow, max 0 (oldest + rateWindowMs - nowMs))

/-- What the clock says when an edit is taken, when a slot is looked for and when a task is
started. -/
structure Readings where
  edit : Int
  slot : Int
  start : Int

namespace SendQueue

/-- What starting a task does; an urgent slot is free from then on. -/
def start (queue : SendQueue) (chatId : Int) : SendTask → SendQueue × List Started
  | .send id => (queue, [.send chatId id])
  | .edit collapseKey version => (queue, [.edit (chatId, collapseKey) version])
  | .urgentEdit collapseKey =>
      let key := (chatId, collapseKey)
      (queue.setUrgent key none, ((queue.queuedUrgentEdits key).map (Started.edit key)).toList)

/-- The first task is taken and started. -/
def startNext (queue : SendQueue) (chatId nowMs : Int) : SendQueue × List Started :=
  let state := queue.chats chatId
  match state.tasks with
  | [] => (queue.setChat chatId { state with pump := .idle }, [])
  | task :: tasks =>
      (queue.setChat chatId
        { tasks, sentAt := state.sentAt ++ [nowMs], pump := .running }).start chatId task

theorem startNext_nil {queue : SendQueue} {chatId : Int} (nowMs : Int)
    (h : (queue.chats chatId).tasks = []) :
    queue.startNext chatId nowMs =
      (queue.setChat chatId { queue.chats chatId with pump := .idle }, []) := by
  simp [startNext, h]

theorem startNext_cons {queue : SendQueue} {chatId : Int} {task : SendTask}
    {tasks : List SendTask} (nowMs : Int) (h : (queue.chats chatId).tasks = task :: tasks) :
    queue.startNext chatId nowMs =
      (queue.setChat chatId
        { tasks, sentAt := (queue.chats chatId).sentAt ++ [nowMs], pump := .running }).start
          chatId task := by
  simp [startNext, h]

/-- The loop of the pump up to its next sleep or its next task. -/
def pumpOn (options : SendQueueOptions) (queue : SendQueue) (chatId : Int) (now : Readings) :
    SendQueue × List Started :=
  let state := queue.chats chatId
  if state.tasks = [] then (queue.setChat chatId { state with pump := .idle }, [])
  else
    let (sentAt, wait) := msUntilSlot options state.sentAt now.slot
    if 0 < wait then (queue.setChat chatId { state with sentAt, pump := .sleeping }, [])
    else startNext (queue.setChat chatId { state with sentAt }) chatId now.start

/-- A pump that is at work is left to it. -/
def pump (options : SendQueueOptions) (queue : SendQueue) (chatId : Int) (now : Readings) :
    SendQueue × List Started :=
  if (queue.chats chatId).pump = .idle then pumpOn options queue chatId now else (queue, [])

end SendQueue

/-! ## calls and events -/

/-- What happens to a queue: calls, a timer that fires, a sleep that ends and a task that ends,
well or not. -/
inductive QueueInput
  | enqueue (chatId : Int) (id : Nat)
  | enqueueInteractive (chatId : Int) (id : Nat)
  | enqueueCardEdit (key : EditKey) (version : Nat) (urgent : Bool)
  | timer (key : EditKey)
  | wake (chatId : Int)
  | settled (chatId : Int) (failed : Bool)

structure QueueEvent where
  input : QueueInput
  now : Readings

namespace SendQueue

def enqueueUrgentEdit (options : SendQueueOptions) (queue : SendQueue) (key : EditKey)
    (version : Nat) (now : Readings) : SendQueue × List Started :=
  let queue := (queue.setDeferred key none).setLastEdit key now.edit
  match queue.queuedUrgentEdits key with
  | some _ => (queue.setUrgent key (some version), [])
  | none =>
      ((queue.setUrgent key (some version)).unshift key.1 (.urgentEdit key.2)).pump options key.1
        now

def enqueueOrdinaryEdit (options : SendQueueOptions) (queue : SendQueue) (key : EditKey)
    (version : Nat) (now : Readings) : SendQueue × List Started :=
  match queue.deferredEdits key with
  -- the latest wins
  | some _ => (queue.setDeferred key (some version), [])
  | none =>
      if (queue.lastEditAt key).all fun last => options.collapseMs ≤ now.edit - last then
        ((queue.setLastEdit key now.edit).push key.1 (.edit key.2 version)).pump options key.1 now
      else (queue.setDeferred key (some version), [])

def fire (options : SendQueueOptions) (queue : SendQueue) (key : EditKey) (now : Readings) :
    SendQueue × List Started :=
  match queue.deferredEdits key with
  | none => (queue, [])
  | some version =>
      (((queue.setDeferred key none).setLastEdit key now.edit).push key.1
        (.edit key.2 version)).pump options key.1 now

def step (options : SendQueueOptions) (queue : SendQueue) (event : QueueEvent) :
    SendQueue × List Started :=
  match event.input with
  | .enqueue chatId id => (queue.push chatId (.send id)).pump options chatId event.now
  | .enqueueInteractive chatId id => (queue.unshift chatId (.send id)).pump options chatId event.now
  | .enqueueCardEdit key version true => queue.enqueueUrgentEdit options key version event.now
  | .enqueueCardEdit key version false => queue.enqueueOrdinaryEdit options key version event.now
  | .timer key => queue.fire options key event.now
  | .wake chatId =>
      if (queue.chats chatId).pump = .sleeping then queue.startNext chatId event.now.start
      else (queue, [])
  | .settled chatId _ =>
      if (queue.chats chatId).pump = .running then queue.pumpOn options chatId event.now
      else (queue, [])

end SendQueue

end CalledIt.Telegram
