import CalledIt.Telegram.SendQueue

/-!
# CalledIt.Telegram.NewestEdit

Which edit of a card runs last (`SendQueue.enqueueCardEdit`).

The versions of one card that have run, and those that wait in the order in which they can run,
are in the order of their submission (`Newest`).  Only an urgent edit can break this: it goes to
the front of the queue, and an ordinary edit of the card that is still in it runs afterwards.
-/

namespace CalledIt.Telegram

open Lib

/-! ## one card -/

/-- The version that a task runs, with what is in the urgent slot of the card. -/
def versionOf (collapseKey : String) (slot : Option Nat) : SendTask → Option Nat
  | .send _ => none
  | .edit key version => if key = collapseKey then some version else none
  | .urgentEdit key => if key = collapseKey then slot else none

/-- The versions that wait, in the order in which they can run. -/
def pending (collapseKey : String) (tasks : List SendTask) (slot deferred : Option Nat) :
    List Nat :=
  tasks.filterMap (versionOf collapseKey slot) ++ deferred.toList

/-- What has run and what waits is in order and ends with the last submission; the slot is taken
while the queue holds one task for it. -/
structure Newest (collapseKey : String) (tasks : List SendTask) (slot deferred : Option Nat)
    (submitted ran : List Nat) : Prop where
  order : (ran ++ pending collapseKey tasks slot deferred).Pairwise (· < ·)
  last : (ran ++ pending collapseKey tasks slot deferred).getLast? = submitted.getLast?
  slot : tasks.count (.urgentEdit collapseKey) = slot.toList.length

variable {tasks' : List SendTask} {task : SendTask}

section Card

variable {collapseKey : String} {tasks : List SendTask} {slot deferred : Option Nat}
  {submitted ran : List Nat} {version : Nat}

theorem filterMap_versionOf (h : tasks.count (.urgentEdit collapseKey) = 0)
    (slot' : Option Nat) :
    tasks.filterMap (versionOf collapseKey slot) =
      tasks.filterMap (versionOf collapseKey slot') := by
  refine List.filterMap_congr fun task htask => ?_
  have hne : task ≠ .urgentEdit collapseKey := fun heq =>
    List.count_eq_zero.mp h (heq ▸ htask)
  cases task with
  | send id => rfl
  | edit key version => rfl
  | urgentEdit key =>
      have hkey : key ≠ collapseKey := fun heq => hne (by rw [heq])
      simp [versionOf, hkey]

/-- Without ordinary edits of the card, only the slot waits in the queue. -/
theorem filterMap_of_clear (hclear : ∀ v, .edit collapseKey v ∉ tasks) (v : Nat) :
    tasks.filterMap (versionOf collapseKey (some v)) =
      List.replicate (tasks.count (.urgentEdit collapseKey)) v := by
  induction tasks with
  | nil => rfl
  | cons task tasks ih =>
      have hrest := ih fun v hv => hclear v (List.mem_cons_of_mem _ hv)
      cases task with
      | send id => rwa [List.filterMap_cons, List.count_cons_of_ne (by simp)]
      | edit key version =>
          have hkey : key ≠ collapseKey := by
            rintro rfl
            exact hclear version List.mem_cons_self
          simpa [versionOf, hkey] using hrest
      | urgentEdit key =>
          by_cases hkey : key = collapseKey
          · subst hkey
            simp [versionOf, hrest, List.replicate_succ]
          · simpa [versionOf, hkey] using hrest

section

variable (h : Newest collapseKey tasks slot deferred submitted ran)

include h

section

variable (hversion : ∀ u ∈ submitted, u < version)

include hversion

/-- A new version is later than everything that has run or waits. -/
theorem Newest.lt :
    ∀ u ∈ ran ++ pending collapseKey tasks slot deferred, u < version := by
  intro u hu
  obtain ⟨before, last, hsplit⟩ :=
    (List.eq_nil_or_concat' (ran ++ pending collapseKey tasks slot deferred)).resolve_left
      (List.ne_nil_of_mem hu)
  have hlast := h.last
  have horder := h.order
  rw [hsplit] at hu hlast horder
  rw [List.getLast?_concat] at hlast
  have hmem : last < version := hversion last (List.mem_of_getLast? hlast.symm)
  rcases List.mem_append.mp hu with hu | hu
  · exact Nat.lt_trans ((List.pairwise_append.mp horder).2.2 u hu last List.mem_cons_self) hmem
  · rwa [List.mem_singleton.mp hu]

/-- A new version comes after those that it leaves. -/
theorem Newest.extend {slot' deferred' : Option Nat} (left : List Nat)
    (hleft : left.Sublist (ran ++ pending collapseKey tasks slot deferred))
    (hpending : ran ++ pending collapseKey tasks' slot' deferred' = left ++ [version])
    (hslot : tasks'.count (.urgentEdit collapseKey) = slot'.toList.length) :
    Newest collapseKey tasks' slot' deferred' (submitted ++ [version]) ran where
  order := by
    rw [hpending]
    refine List.pairwise_append.mpr ⟨h.order.sublist hleft, List.pairwise_singleton _ _, ?_⟩
    intro u hu v hv
    rw [List.mem_singleton.mp hv]
    exact h.lt hversion u (hleft.subset hu)
  last := by rw [hpending, List.getLast?_concat, List.getLast?_concat]
  slot := hslot

/-- The version stays with a timer, in place of the one that was there. -/
theorem Newest.defer :
    Newest collapseKey tasks slot (some version) (submitted ++ [version]) ran := by
  refine h.extend hversion (ran ++ tasks.filterMap (versionOf collapseKey slot)) ?_ ?_ h.slot
  · exact (List.Sublist.refl ran).append (List.sublist_append_left _ _)
  · simp [pending]

end

end

theorem Newest.push (h : Newest collapseKey tasks slot none submitted ran)
    (hversion : ∀ u ∈ submitted, u < version) :
    Newest collapseKey (tasks ++ [.edit collapseKey version]) slot none (submitted ++ [version])
      ran := by
  refine h.extend hversion _ (List.Sublist.refl _) ?_ ?_
  · simp [pending, versionOf]
  · simpa using h.slot

/-- The slot takes the version, in place of whatever waits for the card. -/
theorem Newest.takeSlot (h : Newest collapseKey tasks slot deferred submitted ran)
    (hversion : ∀ u ∈ submitted, u < version) (hclear : ∀ v, .edit collapseKey v ∉ tasks')
    (hslot : tasks'.count (.urgentEdit collapseKey) = 1) :
    Newest collapseKey tasks' (some version) none (submitted ++ [version]) ran := by
  refine h.extend hversion ran (List.sublist_append_left ran _) ?_ hslot
  simp [pending, filterMap_of_clear hclear, hslot]

/-- What the timer held goes to the end of the queue. -/
theorem Newest.fire (h : Newest collapseKey tasks slot (some version) submitted ran) :
    Newest collapseKey (tasks ++ [.edit collapseKey version]) slot none submitted ran := by
  have hpending : pending collapseKey (tasks ++ [.edit collapseKey version]) slot none =
      pending collapseKey tasks slot (some version) := by
    simp [pending, versionOf]
  refine ⟨?_, ?_, ?_⟩
  · rw [hpending]
    exact h.order
  · rw [hpending]
    exact h.last
  · simpa using h.slot

/-- A task that is none of the card's. -/
def Foreign (collapseKey : String) (task : SendTask) : Prop :=
  task ≠ .urgentEdit collapseKey ∧ ∀ slot, versionOf collapseKey slot task = none

theorem foreign_send (collapseKey : String) (id : Nat) : Foreign collapseKey (.send id) :=
  ⟨by simp, fun _ => rfl⟩

theorem foreign_of_ne {key : String} (h : key ≠ collapseKey) :
    (∀ version, Foreign collapseKey (.edit key version)) ∧ Foreign collapseKey (.urgentEdit key) :=
  ⟨fun _ => ⟨by simp, fun _ => if_neg h⟩, by simpa using h, fun _ => if_neg h⟩

/-- Foreign tasks may come and go. -/
theorem Newest.congr (h : Newest collapseKey tasks slot deferred submitted ran)
    (hversions : tasks'.filterMap (versionOf collapseKey slot) =
      tasks.filterMap (versionOf collapseKey slot))
    (hcount : tasks'.count (.urgentEdit collapseKey) = tasks.count (.urgentEdit collapseKey)) :
    Newest collapseKey tasks' slot deferred submitted ran := by
  refine ⟨?_, ?_, hcount.trans h.slot⟩
  · rw [pending, hversions]
    exact h.order
  · rw [pending, hversions]
    exact h.last

theorem Newest.pushForeign (h : Newest collapseKey tasks slot deferred submitted ran)
    (hforeign : Foreign collapseKey task) :
    Newest collapseKey (tasks ++ [task]) slot deferred submitted ran := by
  refine h.congr ?_ ?_
  · simp [hforeign.2]
  · simp [hforeign.1]

theorem Newest.cons_iff_foreign (hforeign : Foreign collapseKey task) :
    Newest collapseKey (task :: tasks) slot deferred submitted ran ↔
      Newest collapseKey tasks slot deferred submitted ran := by
  have hversions : (task :: tasks).filterMap (versionOf collapseKey slot) =
      tasks.filterMap (versionOf collapseKey slot) := by
    rw [List.filterMap_cons, hforeign.2]
  have hcount : (task :: tasks).count (.urgentEdit collapseKey) =
      tasks.count (.urgentEdit collapseKey) := List.count_cons_of_ne hforeign.1
  exact ⟨fun h => h.congr hversions.symm hcount.symm, fun h => h.congr hversions hcount⟩

/-- The first task runs. -/
theorem Newest.runEdit
    (h : Newest collapseKey (.edit collapseKey version :: tasks) slot deferred submitted ran) :
    Newest collapseKey tasks slot deferred submitted (ran ++ [version]) := by
  have hpending : ran ++ pending collapseKey (.edit collapseKey version :: tasks) slot deferred =
      ran ++ [version] ++ pending collapseKey tasks slot deferred := by
    simp [pending, versionOf]
  obtain ⟨horder, hlast, hslot⟩ := h
  rw [hpending] at horder hlast
  exact ⟨horder, hlast, by simpa using hslot⟩

/-- The slot is emptied as its task runs. -/
theorem Newest.runUrgent
    (h : Newest collapseKey (.urgentEdit collapseKey :: tasks) slot deferred submitted ran) :
    ∃ version, slot = some version ∧
      Newest collapseKey tasks none deferred submitted (ran ++ [version]) := by
  obtain ⟨horder, hlast, hslot⟩ := h
  rw [List.count_cons_self] at hslot
  cases slot with
  | none => simp at hslot
  | some version =>
      have hcount : tasks.count (.urgentEdit collapseKey) = 0 := by simpa using hslot
      have hpending : ran ++ pending collapseKey (.urgentEdit collapseKey :: tasks) (some version)
          deferred = ran ++ [version] ++ pending collapseKey tasks none deferred := by
        simp [pending, versionOf, filterMap_versionOf hcount none]
      rw [hpending] at horder hlast
      exact ⟨version, rfl, horder, hlast, hcount⟩

end Card

/-! ## the queue of a chat -/

/-- The versions of a card that an input submits. -/
def submission (key : EditKey) (input : QueueInput) : Option Nat :=
  match input with
  | .enqueueCardEdit key' version _ => if key' = key then some version else none
  | _ => none

def submissions (key : EditKey) (events : List QueueEvent) : List Nat :=
  events.filterMap fun event => submission key event.input

/-- The versions of a card among what has been started. -/
def runs (key : EditKey) (started : List Started) : List Nat :=
  started.filterMap fun
    | .send _ _ => none
    | .edit key' version => if key' = key then some version else none

/-- An urgent edit of the card. -/
def urgentFor (key : EditKey) : QueueInput → Bool
  | .enqueueCardEdit key' _ true => key' = key
  | _ => false

/-- An urgent edit of the card comes while no ordinary one is in the queue. -/
def NoneWaiting (key : EditKey) (queue : SendQueue) (event : QueueEvent) : Prop :=
  urgentFor key event.input = true → ∀ v, .edit key.2 v ∉ (queue.chats key.1).tasks

/-- An ordinary edit of the card is in the queue. -/
def waits (key : EditKey) (queue : SendQueue) : Bool :=
  (queue.chats key.1).tasks.any fun
    | .edit collapseKey _ => collapseKey = key.2
    | _ => false

theorem not_waits_iff (key : EditKey) (queue : SendQueue) :
    waits key queue = false ↔ ∀ v, .edit key.2 v ∉ (queue.chats key.1).tasks := by
  unfold waits
  rw [List.any_eq_false]
  constructor
  · intro h v hmem
    simpa using h _ hmem
  · intro h task hmem
    cases task with
    | send id => simp
    | urgentEdit collapseKey => simp
    | edit collapseKey version =>
        rw [decide_eq_true_eq]
        rintro rfl
        exact h version hmem

instance (key : EditKey) (queue : SendQueue) (event : QueueEvent) :
    Decidable (NoneWaiting key queue event) :=
  decidable_of_iff (urgentFor key event.input = true → waits key queue = false)
    (imp_congr_right fun _ => not_waits_iff key queue)

variable {key' : EditKey}

namespace SendQueue

/-- The card, as it stands in the queue. -/
def Newest (queue : SendQueue) (key : EditKey) (submitted ran : List Nat) : Prop :=
  Telegram.Newest key.2 (queue.chats key.1).tasks (queue.queuedUrgentEdits key)
    (queue.deferredEdits key) submitted ran

section Steps

variable {options : SendQueueOptions} {queue : SendQueue} {key : EditKey} {chatId : Int}
  {submitted ran : List Nat}

/-- A task of another chat. -/
theorem newest_start_elsewhere (h : queue.Newest key submitted ran) (hchat : key.1 ≠ chatId)
    (task : SendTask) :
    (queue.start chatId task).1.Newest key submitted
      (ran ++ runs key (queue.start chatId task).2) := by
  unfold Newest at *
  have hne : ∀ collapseKey, (chatId, collapseKey) ≠ key := fun collapseKey heq =>
    hchat (by rw [← heq])
  cases task with
  | send id => simpa [start, runs] using h
  | edit collapseKey version => simpa [start, runs, hne] using h
  | urgentEdit collapseKey =>
      cases hother : queue.queuedUrgentEdits (chatId, collapseKey) <;>
        simpa [start, runs, hne, Ne.symm (hne collapseKey), hother] using h

/-- The first task of the chat, once it is taken from the queue. -/
theorem newest_start
    (h : Telegram.Newest key.2 (task :: (queue.chats key.1).tasks) (queue.queuedUrgentEdits key)
      (queue.deferredEdits key) submitted ran) :
    (queue.start key.1 task).1.Newest key submitted
      (ran ++ runs key (queue.start key.1 task).2) := by
  unfold Newest
  cases task with
  | send id =>
      have hrest := (Telegram.Newest.cons_iff_foreign (foreign_send key.2 id)).mp h
      simpa [start, runs] using hrest
  | edit collapseKey version =>
      by_cases hkey : collapseKey = key.2
      · subst hkey
        simpa [start, runs] using h.runEdit
      · have hne : (key.1, collapseKey) ≠ key := fun heq => hkey (by rw [← heq])
        have hrest := (Telegram.Newest.cons_iff_foreign ((foreign_of_ne hkey).1 version)).mp h
        simpa [start, runs, hne] using hrest
  | urgentEdit collapseKey =>
      by_cases hkey : collapseKey = key.2
      · subst hkey
        obtain ⟨version, hslot, hrest⟩ := h.runUrgent
        have hsame : queue.queuedUrgentEdits (key.1, key.2) = some version := hslot
        simpa [start, runs, hsame] using hrest
      · have hne : key ≠ (key.1, collapseKey) := fun heq => hkey (by rw [heq])
        have hrest := (Telegram.Newest.cons_iff_foreign (foreign_of_ne hkey).2).mp h
        cases hother : queue.queuedUrgentEdits (key.1, collapseKey) <;>
          simpa [start, runs, hne, Ne.symm hne, hother] using hrest

section

variable (h : queue.Newest key submitted ran)

include h

theorem newest_startNext (chatId nowMs : Int) :
    (queue.startNext chatId nowMs).1.Newest key submitted
      (ran ++ runs key (queue.startNext chatId nowMs).2) := by
  by_cases hchat : key.1 = chatId
  · subst hchat
    cases htasks : (queue.chats key.1).tasks with
    | nil =>
        rw [startNext_nil nowMs htasks]
        simpa [Newest, runs] using h
    | cons task tasks =>
        rw [startNext_cons nowMs htasks]
        refine newest_start ?_
        simpa [Newest, htasks] using h
  · cases htasks : (queue.chats chatId).tasks with
    | nil =>
        rw [startNext_nil nowMs htasks]
        simpa [Newest, runs, hchat] using h
    | cons task tasks =>
        rw [startNext_cons nowMs htasks]
        refine newest_start_elsewhere ?_ hchat task
        simpa [Newest, hchat] using h

/-- The pump starts the next task or starts none. -/
theorem newest_pumpOn (chatId : Int) (now : Readings) :
    (queue.pumpOn options chatId now).1.Newest key submitted
      (ran ++ runs key (queue.pumpOn options chatId now).2) := by
  have hkeep : ∀ sentAt pump, (queue.setChat chatId
      ⟨(queue.chats chatId).tasks, sentAt, pump⟩).Newest key submitted ran := fun sentAt pump => by
    unfold Newest at h ⊢
    by_cases hchat : key.1 = chatId
    · subst hchat
      simpa using h
    · simpa [hchat] using h
  unfold pumpOn
  dsimp only
  split
  · simpa [runs] using hkeep _ _
  · split
    · simpa [runs] using hkeep _ _
    · exact newest_startNext (hkeep _ _) chatId now.start

theorem newest_pump (chatId : Int) (now : Readings) :
    (queue.pump options chatId now).1.Newest key submitted
      (ran ++ runs key (queue.pump options chatId now).2) := by
  unfold pump
  split
  · exact newest_pumpOn h chatId now
  · simpa [runs] using h

theorem newest_push
    (hforeign : key.1 = chatId → Foreign key.2 task) :
    (queue.push chatId task).Newest key submitted ran := by
  unfold Newest at *
  by_cases hchat : key.1 = chatId
  · have hrest := h.pushForeign (hforeign hchat)
    subst hchat
    simpa using hrest
  · simpa [hchat] using h

theorem newest_unshift
    (hforeign : key.1 = chatId → Foreign key.2 task) :
    (queue.unshift chatId task).Newest key submitted ran := by
  unfold Newest at *
  by_cases hchat : key.1 = chatId
  · have hrest := (Telegram.Newest.cons_iff_foreign (hforeign hchat)).mpr h
    subst hchat
    simpa using hrest
  · simpa [hchat] using h

end

/-- Tasks for another card. -/
theorem foreign_other (hkey : key' ≠ key) (hchat : key.1 = key'.1) :
    (∀ version, Foreign key.2 (.edit key'.2 version)) ∧ Foreign key.2 (.urgentEdit key'.2) :=
  foreign_of_ne fun heq => hkey (Prod.ext hchat.symm heq)

section

variable (h : queue.Newest key submitted ran)

include h

/-- An urgent edit of the card, with no ordinary one waiting. -/
theorem newest_urgent_own {version : Nat}
    (hversion : ∀ u ∈ submitted, u < version)
    (hclear : ∀ v, .edit key.2 v ∉ (queue.chats key.1).tasks) (now : Readings) :
    (queue.enqueueUrgentEdit options key version now).1.Newest key (submitted ++ [version])
      (ran ++ runs key (queue.enqueueUrgentEdit options key version now).2) := by
  have hcount := h.slot
  unfold enqueueUrgentEdit
  dsimp only
  rw [urgent_setLastEdit, urgent_setDeferred]
  cases hslot : queue.queuedUrgentEdits key with
  | some old =>
      rw [hslot] at hcount
      have htaken := h.takeSlot hversion hclear hcount
      simpa [Newest, runs] using htaken
  | none =>
      rw [hslot] at hcount
      have hfront : ∀ v, .edit key.2 v ∉ .urgentEdit key.2 :: (queue.chats key.1).tasks := by
        simpa using hclear
      have htaken := h.takeSlot hversion hfront (by simpa using hcount)
      refine newest_pump ?_ key.1 now
      simpa [Newest] using htaken

/-- An ordinary one goes to the end of the queue, or to the timer. -/
theorem newest_ordinary_own {version : Nat}
    (hversion : ∀ u ∈ submitted, u < version) (now : Readings) :
    (queue.enqueueOrdinaryEdit options key version now).1.Newest key (submitted ++ [version])
      (ran ++ runs key (queue.enqueueOrdinaryEdit options key version now).2) := by
  have hdefer : (queue.setDeferred key (some version)).Newest key (submitted ++ [version]) ran := by
    simpa [Newest] using Telegram.Newest.defer h hversion
  unfold enqueueOrdinaryEdit
  cases hdeferred : queue.deferredEdits key with
  | some old => simpa [runs] using hdefer
  | none =>
      dsimp only
      split
      · refine newest_pump ?_ key.1 now
        unfold Newest at h
        rw [hdeferred] at h
        simpa [Newest, hdeferred] using h.push hversion
      · simpa [runs] using hdefer

/-- What is noted for another card. -/
theorem newest_note (hkey : key' ≠ key) (version : Option Nat)
    (nowMs : Int) :
    ((queue.setDeferred key' version).setLastEdit key' nowMs).Newest key submitted ran ∧
      (queue.setDeferred key' version).Newest key submitted ran ∧
      (queue.setUrgent key' version).Newest key submitted ran ∧
      (queue.setLastEdit key' nowMs).Newest key submitted ran := by
  unfold Newest at *
  simpa [Ne.symm hkey] using h

theorem newest_urgent_other (hkey : key' ≠ key) (version : Nat)
    (now : Readings) :
    (queue.enqueueUrgentEdit options key' version now).1.Newest key submitted
      (ran ++ runs key (queue.enqueueUrgentEdit options key' version now).2) := by
  have hnoted := (newest_note h hkey none now.edit).1
  unfold enqueueUrgentEdit
  dsimp only
  split
  · simpa [runs] using (newest_note hnoted hkey (some version) 0).2.2.1
  · refine newest_pump (newest_unshift ?_ fun hchat => (foreign_other hkey hchat).2) key'.1 now
    exact (newest_note hnoted hkey (some version) 0).2.2.1

theorem newest_ordinary_other (hkey : key' ≠ key)
    (version : Nat) (now : Readings) :
    (queue.enqueueOrdinaryEdit options key' version now).1.Newest key submitted
      (ran ++ runs key (queue.enqueueOrdinaryEdit options key' version now).2) := by
  obtain ⟨-, hdefer, -, hlast⟩ := newest_note h hkey (some version) now.edit
  unfold enqueueOrdinaryEdit
  split
  · simpa [runs] using hdefer
  · split
    · exact newest_pump (newest_push hlast fun hchat => (foreign_other hkey hchat).1 version) key'.1
        now
    · simpa [runs] using hdefer

/-- A timer fires, of this card or of another. -/
theorem newest_fire (key' : EditKey) (now : Readings) :
    (queue.fire options key' now).1.Newest key submitted
      (ran ++ runs key (queue.fire options key' now).2) := by
  unfold fire
  split
  · simpa [runs] using h
  · next version hdeferred =>
    refine newest_pump ?_ key'.1 now
    by_cases hkey : key' = key
    · subst hkey
      unfold Newest at h
      rw [hdeferred] at h
      simpa [Newest] using h.fire
    · exact newest_push (newest_note h hkey none now.edit).1
        fun hchat => (foreign_other hkey hchat).1 version

/-- One step, for one card. -/
theorem newest_step {event : QueueEvent}
    (hversion : ∀ v ∈ submission key event.input, ∀ u ∈ submitted, u < v)
    (hnone : NoneWaiting key queue event) :
    (queue.step options event).1.Newest key
      (submitted ++ (submission key event.input).toList)
      (ran ++ runs key (queue.step options event).2) := by
  obtain ⟨input, now⟩ := event
  cases input with
  | enqueue chatId id =>
      simpa [submission, step] using
        newest_pump (newest_push h fun _ => foreign_send key.2 id) chatId now
  | enqueueInteractive chatId id =>
      simpa [submission, step] using
        newest_pump (newest_unshift h fun _ => foreign_send key.2 id) chatId now
  | enqueueCardEdit key' version urgent =>
      by_cases hkey : key' = key
      · subst hkey
        have hlater : ∀ u ∈ submitted, u < version := hversion version (by simp [submission])
        cases urgent with
        | true =>
            have hclear := hnone (by simp [urgentFor])
            simpa [submission, step] using newest_urgent_own h hlater hclear now
        | false => simpa [submission, step] using newest_ordinary_own h hlater now
      · cases urgent with
        | true => simpa [submission, step, hkey] using newest_urgent_other h hkey version now
        | false => simpa [submission, step, hkey] using newest_ordinary_other h hkey version now
  | timer key' => simpa [submission, step] using newest_fire h key' now
  | wake chatId =>
      unfold step
      dsimp only
      split
      · simpa [submission] using newest_startNext h chatId now.start
      · simpa [submission, runs] using h
  | settled chatId failed =>
      unfold step
      dsimp only
      split
      · simpa [submission] using newest_pumpOn h chatId now
      · simpa [submission, runs] using h

end

end Steps

end SendQueue

/-! ## every run -/

theorem newest_new (key : EditKey) : SendQueue.new.Newest key [] [] :=
  ⟨List.Pairwise.nil, rfl, rfl⟩

/-- The versions of a card are numbered as they are submitted.  If no urgent edit of it comes
while an ordinary one is in the queue, its edits run in this order, and when none waits the last
one that has run is the last one submitted. -/
theorem newest_edit_runs_last (options : SendQueueOptions) (key : EditKey)
    {events : List QueueEvent} (hnumbered : (submissions key events).Pairwise (· < ·))
    (hnone : Along (SendQueue.step options) (NoneWaiting key) SendQueue.new events) :
    let after := execute (SendQueue.step options) SendQueue.new events
    (runs key after.2).Pairwise (· < ·) ∧
      ((after.1.chats key.1).tasks = [] → after.1.deferredEdits key = none →
        (runs key after.2).getLast? = (submissions key events).getLast?) := by
  intro after
  have hnew : (submissions key []).Pairwise (· < ·) →
      SendQueue.new.Newest key (submissions key []) (runs key []) := fun _ => newest_new key
  have hrun : (submissions key ([] ++ events)).Pairwise (· < ·) →
      after.1.Newest key (submissions key ([] ++ events)) (runs key ([] ++ after.2)) := by
    refine execute_history_along (I := fun queue events started =>
      (submissions key events).Pairwise (· < ·) →
        queue.Newest key (submissions key events) (runs key started))
      (fun queue events started event ih hclear hpairwise => ?_) hnew hnone
    have hsplit : submissions key (events ++ [event]) =
        submissions key events ++ (submission key event.input).toList := by
      cases hsubmission : submission key event.input <;> simp [submissions, hsubmission]
    have hruns : runs key (started ++ (queue.step options event).2) =
        runs key started ++ runs key (queue.step options event).2 := List.filterMap_append
    rw [hsplit] at hpairwise ⊢
    rw [hruns]
    obtain ⟨hbefore, -, hlater⟩ := List.pairwise_append.mp hpairwise
    exact SendQueue.newest_step (ih hbefore)
      (fun v hv u hu => hlater u hu v (Option.mem_toList.mpr hv)) hclear
  obtain ⟨horder, hlast, -⟩ := hrun hnumbered
  refine ⟨(List.pairwise_append.mp horder).1, fun htasks hdeferred => ?_⟩
  have hpending : pending key.2 (after.1.chats key.1).tasks (after.1.queuedUrgentEdits key)
      (after.1.deferredEdits key) = [] := by
    rw [htasks, hdeferred]
    rfl
  rw [hpending, List.append_nil] at hlast
  exact hlast

namespace Sample

def oneAMinute : SendQueueOptions := ⟨1, 60000⟩

def card : EditKey := (1, "market-1")

def happens (nowMs : Int) (input : QueueInput) : QueueEvent := ⟨input, nowMs, nowMs, nowMs⟩

/-- A card is frozen and settled while the chat is at its limit, and refreshed afterwards. -/
def settledCard : List QueueEvent :=
  [happens 0 (.enqueue 1 0), happens 0 (.settled 1 false),
    happens 1 (.enqueueCardEdit card 1 true), happens 2 (.enqueueCardEdit card 2 true),
    happens 3 (.enqueueCardEdit card 3 false), happens 60000 (.wake 1),
    happens 60001 (.settled 1 true), happens 60003 (.timer card), happens 120000 (.wake 1)]

/-- An open card waits for a slot when it is settled. -/
def overtakenCard : List QueueEvent :=
  [happens 0 (.enqueue 1 0), happens 0 (.settled 1 false),
    happens 1 (.enqueueCardEdit card 1 false), happens 2 (.enqueueCardEdit card 2 true),
    happens 60000 (.wake 1), happens 60001 (.settled 1 false), happens 120000 (.wake 1)]

end Sample

/-- The settled card runs, and then the refreshed one. -/
theorem newest_edit_runs_last_sample :
    let after := execute (SendQueue.step Sample.oneAMinute) SendQueue.new Sample.settledCard
    (runs Sample.card after.2).Pairwise (· < ·) ∧
      (runs Sample.card after.2).getLast? =
        (submissions Sample.card Sample.settledCard).getLast? := by
  have hnumbered : (submissions Sample.card Sample.settledCard).Pairwise (· < ·) := by
    decide +kernel
  obtain ⟨horder, hlast⟩ :=
    newest_edit_runs_last Sample.oneAMinute Sample.card hnumbered (by decide +kernel)
  exact ⟨horder, hlast (by decide +kernel) (by decide +kernel)⟩

/-- The settled card goes first, and the open one is what stays. -/
theorem older_edit_runs_last :
    let after := execute (SendQueue.step Sample.oneAMinute) SendQueue.new Sample.overtakenCard
    submissions Sample.card Sample.overtakenCard = [1, 2] ∧ runs Sample.card after.2 = [2, 1] ∧
      (after.1.chats 1).tasks = [] ∧ after.1.deferredEdits Sample.card = none := by
  decide +kernel

end CalledIt.Telegram
