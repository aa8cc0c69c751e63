import CalledIt.Engine.Handling

/-!
# CalledIt.Engine.Markers

When a marker means that the market has seen the event.

Feed rows, the stream's cursor and the scheduler's watermarks make later deliveries of
an event be skipped.  Where no call throws while an event is due, and the process only
dies before the first marker or after the market is done (`Careful`), an open market
has been reduced over every event that was due and is skipped now, and over the due
events in order (`markers_sound`).
-/

namespace CalledIt.Engine

open Lib

/-! ## the promise -/

/-- The stream does not deliver the event again after a restart. -/
def Passed (stream : List MatchEvent) (world : FeedWorld) (seq : Nat) : Prop :=
  ∃ index < world.cursor, ∃ event, stream[index]? = some event ∧ event.seq = seq

/-- Due events are reduced in order, each with all its effects before a later one. -/
def InOrder (notes : List FeedNote) : Prop :=
  ∀ before later complete after, notes = before ++ .reduced later complete :: after →
    ∀ seq < later, .due seq ∈ before → .reduced seq true ∈ before

structure Unblinded (stream : List MatchEvent) (world : FeedWorld) (notes : List FeedNote) :
    Prop where
  marks : ∀ book, world.market = some book → book.isOpen = true → ∀ seq, .due seq ∈ notes →
    world.Skips book seq ∨ Passed stream world seq → .reduced seq true ∈ notes
  order : InOrder notes

/-! ## the condition -/

/-- No call throws, and the workflow knows the market. -/
structure Faults.Unthrown (faults : Faults) : Prop where
  insertFeedEvent : faults.insertFeedEvent.fate ≠ .throws
  updateFixture : faults.updateFixture ≠ .throws
  openMarkets : faults.openMarkets ≠ .throws
  narrateGoal : faults.narrateGoal ≠ .throws
  positionsForMarket : faults.positionsForMarket ≠ .throws
  write : ∀ n, (faults.write n).fate ≠ .throws
  schedulerMarkets : faults.schedulerMarkets ≠ .throws
  schedulerPositions : faults.schedulerPositions ≠ .throws
  loadMarket : faults.loadMarket ≠ .throws
  context : faults.context = true
  requests : faults.requests ≠ .throws

/-- The process does not die before the market is done. -/
def Faults.Served (faults : Faults) : Custody → Prop
  | .legacy =>
      faults.insertFeedEvent = .returns ∧ faults.updateFixture = .returns ∧
        faults.openMarkets = .returns ∧ faults.narrateGoal = .returns ∧
        faults.diesBefore = false ∧ faults.positionsForMarket = .returns ∧
        ∀ n, faults.write n = .returns
  | .escrow =>
      faults.schedulerMarkets = .returns ∧ faults.schedulerPositions = .returns ∧
        faults.loadMarket = .returns ∧ faults.requests = .returns

/-- The process dies before the feed row is there; the scheduler marks nothing that
outlives it. -/
def Faults.Unseen (faults : Faults) (custody : Custody) : Prop :=
  custody = .legacy → faults.insertFeedEvent = .crashes false

/-- Where the frame is due, nothing throws, and the market is done with it or the stream
delivers it again. -/
def Spared (world : FeedWorld) (index : Nat) (event : MatchEvent) (faults : Faults) : Prop :=
  ∀ book, world.market = some book → world.isDue event.seq = true →
    faults.Unthrown ∧ (faults.Served book.custody ∨
      faults.Unseen book.custody ∧ world.cursor ≤ index)

/-- A gap fill does not bring a due frame before an earlier one that was lost. -/
def Careful (stream : List MatchEvent) (world : FeedWorld) : FeedAction → Prop
  | .frame faults => ∀ event, stream[world.reading]? = some event →
      Spared world world.reading event faults
  | .fill index faults => ∀ event, stream[index]? = some event →
      Spared world index event faults ∧
        (world.isDue event.seq = true → ∀ earlier ∈ world.lost, index ≤ earlier)
  | _ => True

/-! ## one market -/

namespace MarketBook

theorem carryOut_keeps (write : Nat → WriteFate) (book : MarketBook)
    {changes : List (MarketBook → MarketBook)}
    (h : ∀ change ∈ changes, ∀ book : MarketBook,
      (change book).custody = book.custody ∧ (change book).watermark = book.watermark) :
    (book.carryOut write changes).1.custody = book.custody ∧
      (book.carryOut write changes).1.watermark = book.watermark := by
  induction changes generalizing book write with
  | nil => exact ⟨rfl, rfl⟩
  | cons change changes ih =>
      have hnext : ∀ landed : Bool,
          (if landed = true then change book else book).custody = book.custody ∧
            (if landed = true then change book else book).watermark = book.watermark := by
        intro landed
        cases landed with
        | true => exact h change List.mem_cons_self book
        | false => exact ⟨rfl, rfl⟩
      rw [carryOut]
      split
      · obtain ⟨hcustody, hwatermark⟩ := ih (fun n => write (n + 1))
          (if (write 0).landed then change book else book)
          fun later hlater => h later (List.mem_cons_of_mem _ hlater)
        exact ⟨hcustody.trans (hnext _).1, hwatermark.trans (hnext _).2⟩
      · exact hnext _

theorem writes_keep (book : MarketBook) (result : ReduceResult) :
    ∀ change ∈ book.writes result, ∀ other : MarketBook,
      (change other).custody = other.custody ∧ (change other).watermark = other.watermark := by
  intro change hchange other
  obtain hchange | hchange := List.mem_append.mp hchange
  · obtain ⟨effect, -, rfl⟩ := List.mem_map.mp hchange
    exact ⟨rfl, rfl⟩
  · split at hchange
    · obtain rfl := List.mem_singleton.mp hchange
      exact ⟨rfl, rfl⟩
    · cases hchange

theorem carryOut_returns {write : Nat → WriteFate} (h : ∀ n, write n = .returns)
    (book : MarketBook) (changes : List (MarketBook → MarketBook)) :
    (book.carryOut write changes).2 = .returns := by
  induction changes generalizing book write with
  | nil => rfl
  | cons change changes ih =>
      rw [carryOut]
      simp only [h 0, WriteFate.landed, WriteFate.fate, if_true]
      exact ih (fun n => h (n + 1)) _

end MarketBook

/-- What a handler makes of a market it has listed. -/
structure Handled (seq : Nat) (book : MarketBook) (next : MarketBook × Fate × List FeedNote) :
    Prop where
  custody : next.1.custody = book.custody
  watermark : next.1.watermark = book.watermark ∨ next.1.watermark = some seq
  notes : ∀ note ∈ next.2.2, ∃ complete, note = .reduced seq complete

theorem MarketBook.handled_settle (book : MarketBook) (event : MatchEvent) (faults : Faults) :
    Handled event.seq book (book.settle event faults) := by
  unfold MarketBook.settle
  split
  · dsimp only
    have hkeeps := fun cached : Option MarketState => fun result : ReduceResult =>
      MarketBook.carryOut_keeps faults.write { book with cached }
        (MarketBook.writes_keep book result)
    split
    · exact ⟨(hkeeps _ _).1, .inl (hkeeps _ _).2, by simp⟩
    · exact ⟨(hkeeps _ _).1, .inl (hkeeps _ _).2, by simp⟩
  · exact ⟨rfl, .inl rfl, by simp⟩

variable {event : MatchEvent}

theorem MarketBook.handled_schedule (book : MarketBook) (hscore : event.kind ≠ .oddsSuspension)
    (faults : Faults) :
    Handled event.seq book (book.schedule event faults) := by
  have hkeep : ∀ (enqueued : Fate × Bool) (result : ReduceResult), Handled event.seq book
      (if enqueued.2 then book.keep event result else book, enqueued.1,
        [.reduced event.seq enqueued.2]) := by
    intro enqueued result
    cases enqueued.2 with
    | true => exact ⟨rfl, .inr (if_pos hscore), by simp⟩
    | false => exact ⟨rfl, .inl rfl, by simp⟩
  unfold MarketBook.schedule
  split
  · exact ⟨rfl, .inl rfl, by simp⟩
  · split
    · dsimp only
      split
      · exact ⟨rfl, .inl rfl, by simp⟩
      · exact hkeep _ _
    · exact ⟨rfl, .inl rfl, by simp⟩

variable {book : MarketBook}

theorem MarketBook.schedule_below (hscore : event.kind ≠ .oddsSuspension)
    (hbelow : book.belowWatermark event.seq = true)
    (faults : Faults) : book.schedule event faults = (book, .returns, []) :=
  if_pos ⟨hscore, hbelow⟩

variable {seq : Nat}

theorem MarketBook.belowWatermark_of_handled {next : MarketBook × Fate × List FeedNote}
    (h : Handled seq book next) {other : Nat} (hbelow : next.1.belowWatermark other = true) :
    book.belowWatermark other = true ∨ other ≤ seq := by
  unfold MarketBook.belowWatermark at hbelow
  obtain hsame | hmoved := h.watermark
  · rw [hsame] at hbelow
    exact .inl hbelow
  · rw [hmoved] at hbelow
    exact .inr (of_decide_eq_true hbelow)

variable {faults : Faults}

/-- Where nothing fails before the settler is done, it is done. -/
theorem MarketBook.complete_settle (hpositions : faults.positionsForMarket = .returns)
    (hwrite : ∀ n, faults.write n = .returns) (book : MarketBook) (event : MatchEvent) :
    .reduced event.seq true ∈ (book.settle event faults).2.2 := by
  unfold MarketBook.settle
  simp only [hpositions, MarketBook.carryOut_returns hwrite, List.mem_singleton]

/-- Where no call throws and there is a context, the scheduler is done or dies. -/
theorem MarketBook.complete_schedule (h : faults.Unthrown)
    (hskips : book.belowWatermark event.seq = false) :
    .reduced event.seq true ∈ (book.schedule event faults).2.2 ∨
      (book.schedule event faults).2.1 = .crashes ∧ ¬ faults.Served .escrow := by
  have henqueue : faults.enqueue = (.returns, true) ∨
      faults.enqueue.1 = .crashes ∧ ¬ faults.Served .escrow := by
    have hload := h.loadMarket
    have hrequests := h.requests
    unfold Faults.enqueue Faults.Served
    rw [h.context]
    revert hload hrequests
    cases faults.loadMarket <;> cases faults.requests <;> simp
  have hpositions := h.schedulerPositions
  unfold MarketBook.schedule
  rw [if_neg (by simp [hskips])]
  cases hfate : faults.schedulerPositions with
  | throws => exact absurd hfate hpositions
  | crashes =>
      refine .inr ⟨rfl, fun hserved => ?_⟩
      rw [hserved.2.1] at hfate
      cases hfate
  | returns =>
      dsimp only
      split
      · exact .inl (by simp)
      · split
        · obtain henqueue | henqueue := henqueue
          · exact .inl (by simp [henqueue])
          · exact .inr henqueue
        · exact .inl (by simp)

/-! ## one delivery -/

variable {custody : Custody}

namespace FeedWorld

variable {world : FeedWorld}

theorem listed_eq_some :
    world.listed custody = some book ↔
      world.market = some book ∧ book.isOpen = true ∧ book.custody = custody := by
  simp [listed, Option.filter_eq_some_iff]

theorem insertRow_eq (world : FeedWorld) (seq : Nat) (write : WriteFate) :
    ∃ feedRows, world.insertRow seq write = { world with feedRows } ∧
      (feedRows = world.feedRows ∨
        seq ∉ world.feedRows ∧ write.landed = true ∧ feedRows = seq :: world.feedRows) := by
  unfold insertRow
  split
  · next h => exact ⟨_, rfl, .inr ⟨h.2, h.1, rfl⟩⟩
  · exact ⟨_, rfl, .inl rfl⟩

/-- A handler leaves the market and shows nothing, or it has listed the market. -/
def Reaches (world : FeedWorld) (custody : Custody)
    (handle : MarketBook → MarketBook × Fate × List FeedNote)
    (next : FeedWorld × Fate × List FeedNote) : Prop :=
  next.1 = world ∧ next.2.2 = [] ∨
    ∃ book, world.listed custody = some book ∧
      next = ({ world with market := some (handle book).1 }, caught (handle book).2.1,
        (handle book).2.2)

theorem reaches_reduceMarkets (world : FeedWorld) (event : MatchEvent) (faults : Faults) :
    Reaches world .legacy (·.settle event faults) (world.reduceMarkets event faults) := by
  unfold reduceMarkets
  split
  · exact .inl ⟨rfl, rfl⟩
  · split
    · exact .inl ⟨rfl, rfl⟩
    · next book hbook => exact .inr ⟨book, hbook, rfl⟩

theorem reaches_runScheduler (world : FeedWorld) (event : MatchEvent) (faults : Faults) :
    Reaches world .escrow (·.schedule event faults) (world.runScheduler event faults) := by
  unfold runScheduler
  split
  · split
    · exact .inl ⟨rfl, rfl⟩
    · next book hbook => exact .inr ⟨book, hbook, rfl⟩
  · exact .inl ⟨rfl, rfl⟩

/-- The settler finds the row of the event, or inserts it and may go on to the market. -/
theorem reaches_onEvent (world : FeedWorld) (event : MatchEvent) (faults : Faults) :
    (event.seq ∈ world.feedRows → (world.onEvent event faults).1 = world ∧
      (world.onEvent event faults).2.2 = []) ∧
    Reaches (world.insertRow event.seq faults.insertFeedEvent) .legacy (·.settle event faults)
      (world.onEvent event faults) := by
  unfold onEvent
  dsimp only
  by_cases hrow : event.seq ∈ world.feedRows
  · have hsame : world.insertRow event.seq faults.insertFeedEvent = world := by
      simp [insertRow, hrow]
    rw [hsame, if_pos hrow]
    split
    · exact ⟨fun _ => ⟨rfl, rfl⟩, .inl ⟨rfl, rfl⟩⟩
    · exact ⟨fun _ => ⟨rfl, rfl⟩, .inl ⟨rfl, rfl⟩⟩
  · refine ⟨fun h => absurd h hrow, ?_⟩
    rw [if_neg hrow]
    split
    · split
      · exact reaches_reduceMarkets _ event faults
      · exact .inl ⟨rfl, rfl⟩
    · exact .inl ⟨rfl, rfl⟩

theorem Reaches.idle {handle : MarketBook → MarketBook × Fate × List FeedNote}
    {next : FeedWorld × Fate × List FeedNote} (h : Reaches world custody handle next)
    (hlisted : world.listed custody = none) : next.1 = world ∧ next.2.2 = [] := by
  obtain h | ⟨book, hbook, -⟩ := h
  · exact h
  · rw [hlisted] at hbook
    cases hbook

theorem listed_eq_none
    (h : ∀ book, world.market = some book → book.isOpen = true → book.custody ≠ custody) :
    world.listed custody = none :=
  Option.eq_none_iff_forall_ne_some.mpr fun book hlisted =>
    have ⟨hmarket, hopen, hcustody⟩ := listed_eq_some.mp hlisted
    h book hmarket hopen hcustody

theorem isDue_eq_true (h : world.market = some book) (seq : Nat) :
    world.isDue seq = true ↔ book.isOpen = true ∧ ¬ world.Skips book seq := by
  simp [isDue, h]

/-- The note of a delivery that is due. -/
def dueNotes (world : FeedWorld) (seq : Nat) : List FeedNote :=
  if world.isDue seq then [.due seq] else []

/-- An event may get a feed row; beyond that the market is left as it is, or the event is
due and one handler is at work. -/
theorem handle_cases (world : FeedWorld) (hscore : event.kind ≠ .oddsSuspension) (faults : Faults) :
    ∃ feedRows, (∀ seq ∈ feedRows, seq ∈ world.feedRows ∨ seq = event.seq) ∧
      ((world.handle event faults).1 = { world with feedRows } ∧
          (world.handle event faults).2.2 = world.dueNotes event.seq ∨
        ∃ book next, world.market = some book ∧ world.isDue event.seq = true ∧
          Handled event.seq book next ∧
          (world.handle event faults).1 = { world with feedRows, market := some next.1 } ∧
          (world.handle event faults).2.2 = world.dueNotes event.seq ++ next.2.2) := by
  obtain ⟨hknown, hsettled⟩ := world.reaches_onEvent event faults
  obtain ⟨feedRows, hinserted, hrows⟩ := world.insertRow_eq event.seq faults.insertFeedEvent
  have hscheduled := (world.onEvent event faults).1.reaches_runScheduler event faults
  have hworld : (world.handle event faults).1 =
      ((world.onEvent event faults).1.runScheduler event faults).1 := rfl
  have hnotes : (world.handle event faults).2.2 = world.dueNotes event.seq ++
      (world.onEvent event faults).2.2 ++
        ((world.onEvent event faults).1.runScheduler event faults).2.2 := rfl
  have hgrown : ∀ seq ∈ feedRows, seq ∈ world.feedRows ∨ seq = event.seq := by
    intro seq hseq
    obtain rfl | ⟨-, -, rfl⟩ := hrows
    · exact .inl hseq
    · exact (List.mem_cons.mp hseq).symm
  rw [hinserted] at hsettled
  cases hlegacy : world.listed .legacy with
  | none =>
      obtain ⟨hkept, hquiet⟩ := hsettled.idle hlegacy
      rw [hkept] at hscheduled hworld hnotes
      rw [hquiet, List.append_nil] at hnotes
      obtain ⟨hidle, hidleNotes⟩ | ⟨book, hlisted, hdone⟩ := hscheduled
      · exact ⟨feedRows, hgrown,
          .inl ⟨hworld.trans hidle, by rw [hnotes, hidleNotes, List.append_nil]⟩⟩
      · obtain ⟨hmarket, hopen, hcustody⟩ : world.market = some book ∧ book.isOpen = true ∧
            book.custody = .escrow := listed_eq_some.mp hlisted
        rw [hdone] at hworld hnotes
        cases hbelow : book.belowWatermark event.seq with
        | true =>
            have hskipped := MarketBook.schedule_below hscore hbelow faults
            refine ⟨feedRows, hgrown, .inl ⟨hworld.trans ?_, hnotes.trans ?_⟩⟩
            · simp only [hskipped, ← hmarket]
            · simp only [hskipped, List.append_nil]
        | false =>
            refine ⟨feedRows, hgrown, .inr ⟨book, _, hmarket, ?_,
              book.handled_schedule hscore faults, hworld, hnotes⟩⟩
            rw [isDue_eq_true hmarket, Skips, hcustody]
            exact ⟨hopen, by simp [hbelow]⟩
  | some book =>
      obtain ⟨hmarket, hopen, hcustody⟩ := listed_eq_some.mp hlegacy
      have hescrow : (world.onEvent event faults).1.listed .escrow = none := by
        obtain ⟨hkept, -⟩ | ⟨other, hother, hdone⟩ := hsettled
        · refine listed_eq_none fun other hother _ => ?_
          rw [hkept] at hother
          rw [Option.some.inj (hother.symm.trans hmarket), hcustody]
          exact Custody.noConfusion
        · refine listed_eq_none fun settled hsettledBook _ => ?_
          rw [hdone] at hsettledBook
          rw [← Option.some.inj hsettledBook, (other.handled_settle event faults).custody,
            (listed_eq_some.mp hother).2.2]
          exact Custody.noConfusion
      obtain ⟨hidle, hidleNotes⟩ := hscheduled.idle hescrow
      rw [hidle] at hworld
      rw [hidleNotes, List.append_nil] at hnotes
      by_cases hrow : event.seq ∈ world.feedRows
      · obtain ⟨hkept, hquiet⟩ := hknown hrow
        exact ⟨world.feedRows, fun _ hseq => .inl hseq,
          .inl ⟨hworld.trans hkept, by rw [hnotes, hquiet, List.append_nil]⟩⟩
      · obtain ⟨hkept, hquiet⟩ | ⟨other, hother, hdone⟩ := hsettled
        · exact ⟨feedRows, hgrown,
            .inl ⟨hworld.trans hkept, by rw [hnotes, hquiet, List.append_nil]⟩⟩
        · obtain rfl := Option.some.inj (hlegacy.symm.trans hother)
          rw [hdone] at hworld hnotes
          refine ⟨feedRows, hgrown, .inr ⟨book, _, hmarket, ?_, book.handled_settle event faults,
            hworld, hnotes⟩⟩
          rw [isDue_eq_true hmarket, Skips, hcustody]
          exact ⟨hopen, hrow⟩

/-- Where nothing fails before the settler is done, it has been done. -/
theorem onEvent_served (hlisted : world.listed .legacy = some book)
    (hnew : event.seq ∉ world.feedRows) (h : faults.Served .legacy) :
    .reduced event.seq true ∈ (world.onEvent event faults).2.2 := by
  obtain ⟨hinsert, hfixture, hopen, hnarrate, hlives, hpositions, hwrite⟩ := h
  have hinserted : (world.insertRow event.seq faults.insertFeedEvent).listed .legacy =
      some book := by
    obtain ⟨feedRows, heq, -⟩ := world.insertRow_eq event.seq faults.insertFeedEvent
    rw [heq]
    exact hlisted
  have hreduced : (world.onEvent event faults).2.2 = (book.settle event faults).2.2 := by
    simp only [onEvent, reduceMarkets, hinsert, WriteFate.fate, hnew, if_false, hfixture, hopen,
      hnarrate, Fate.andThen, hlives, Bool.false_eq_true] at hinserted ⊢
    rw [hinserted]
  rw [hreduced]
  exact book.complete_settle hpositions hwrite event

/-- Where the process dies before the feed row is there, the row stays away. -/
theorem handle_unseen (world : FeedWorld) (event : MatchEvent)
    (h : faults.insertFeedEvent = .crashes false) :
    (world.handle event faults).2.1 = .crashes ∧
      (world.handle event faults).1.feedRows = world.feedRows := by
  have hdead : world.onEvent event faults = (world, .crashes, []) := by
    simp [onEvent, insertRow, h, WriteFate.fate, WriteFate.landed]
  have hscheduled := world.reaches_runScheduler event faults
  simp only [handle, hdead, true_or, if_true, true_and]
  obtain ⟨hkept, -⟩ | ⟨book, -, hdone⟩ := hscheduled
  · rw [hkept]
  · rw [hdone]

/-- The settler leaves an escrow market alone. -/
theorem onEvent_escrow (hmarket : world.market = some book) (hcustody : book.custody = .escrow)
    (event : MatchEvent) (faults : Faults) :
    (world.onEvent event faults).1.market = some book := by
  obtain ⟨feedRows, hinserted, -⟩ := world.insertRow_eq event.seq faults.insertFeedEvent
  have hsettled := (world.reaches_onEvent event faults).2
  rw [hinserted] at hsettled
  have hlegacy : world.listed .legacy = none := by
    refine listed_eq_none fun other hother _ => ?_
    rw [Option.some.inj (hother.symm.trans hmarket), hcustody]
    exact Custody.noConfusion
  rw [(hsettled.idle hlegacy).1]
  exact hmarket

/-- A due event is reduced, or the process dies without a mark that outlives it. -/
theorem handle_done (hmarket : world.market = some book) (hdue : world.isDue event.seq = true)
    (hunthrown : faults.Unthrown) (h : faults.Served book.custody ∨ faults.Unseen book.custody) :
    .reduced event.seq true ∈ (world.handle event faults).2.2 ∨
      (world.handle event faults).2.1 = .crashes ∧ ¬ faults.Served book.custody ∧
        (book.custody = .legacy → (world.handle event faults).1.feedRows = world.feedRows) := by
  obtain ⟨hopen, hskips⟩ := (isDue_eq_true hmarket event.seq).mp hdue
  unfold Skips at hskips
  cases hcustody : book.custody with
  | legacy =>
      rw [hcustody] at h hskips
      by_cases hserved : faults.Served .legacy
      · have hdone := onEvent_served (listed_eq_some.mpr ⟨hmarket, hopen, hcustody⟩) hskips hserved
        exact .inl (List.mem_append_left _ (List.mem_append_right _ hdone))
      · obtain ⟨hfate, hrows⟩ := world.handle_unseen event (h.resolve_left hserved rfl)
        exact .inr ⟨hfate, hserved, fun _ => hrows⟩
  | escrow =>
      rw [hcustody] at hskips
      have hlisted : (world.onEvent event faults).1.listed .escrow = some book :=
        listed_eq_some.mpr ⟨onEvent_escrow hmarket hcustody event faults, hopen, hcustody⟩
      cases hmarkets : faults.schedulerMarkets with
      | throws => exact absurd hmarkets hunthrown.schedulerMarkets
      | crashes =>
          refine .inr ⟨?_, fun hserved => ?_, nofun⟩
          · simp [handle, runScheduler, hmarkets]
          · rw [hserved.1] at hmarkets
            cases hmarkets
      | returns =>
          have hrun : (world.onEvent event faults).1.runScheduler event faults =
              ({ (world.onEvent event faults).1 with
                  market := some (book.schedule event faults).1 },
                caught (book.schedule event faults).2.1, (book.schedule event faults).2.2) := by
            simp only [runScheduler, hmarkets, hlisted]
          obtain hdone | ⟨hfate, hserved⟩ :=
            MarketBook.complete_schedule hunthrown (Bool.eq_false_of_not_eq_true hskips)
          · refine .inl (List.mem_append_right _ ?_)
            rw [hrun]
            exact hdone
          · refine .inr ⟨?_, hserved, nofun⟩
            simp [handle, hrun, hfate, caught]

/-- What handling an event does to the markers. -/
structure Steps (world : FeedWorld) (event : MatchEvent) (next : FeedWorld × Fate × List FeedNote) :
    Prop where
  cursor : next.1.cursor = world.cursor
  reading : next.1.reading = world.reading
  lost : next.1.lost = world.lost
  notes : ∃ later, next.2.2 = world.dueNotes event.seq ++ later ∧
    ∀ note ∈ later, world.isDue event.seq = true ∧ ∃ complete, note = .reduced event.seq complete
  absent : next.1.market = none → world.market = none
  market : ∀ book', next.1.market = some book' → book'.isOpen = true →
    ∃ book, world.market = some book ∧ book.isOpen = true ∧ book'.custody = book.custody ∧
      ∀ seq, next.1.Skips book' seq →
        world.Skips book seq ∨ world.isDue event.seq = true ∧ seq ≤ event.seq

theorem steps_handle (world : FeedWorld) (hscore : event.kind ≠ .oddsSuspension)
    (faults : Faults) : Steps world event (world.handle event faults) := by
  obtain ⟨feedRows, hrows,
    ⟨hkept, hnotes⟩ | ⟨book, next, hmarket, hdue, hhandled, hkept, hnotes⟩⟩ :=
    world.handle_cases hscore faults
  · refine ⟨by rw [hkept], by rw [hkept], by rw [hkept], ⟨[], ?_, nofun⟩, ?_, ?_⟩
    · rw [hnotes, List.append_nil]
    · rw [hkept]
      exact id
    · rw [hkept]
      intro book (hmarket : world.market = some book) hopen
      refine ⟨book, hmarket, hopen, rfl, fun seq hskips => ?_⟩
      unfold Skips at hskips ⊢
      cases hcustody : book.custody with
      | escrow =>
          rw [hcustody] at hskips
          exact .inl hskips
      | legacy =>
          rw [hcustody] at hskips
          by_cases hrow : seq ∈ world.feedRows
          · exact .inl hrow
          · obtain rfl := (hrows seq hskips).resolve_left hrow
            refine .inr ⟨(isDue_eq_true hmarket _).mpr ⟨hopen, ?_⟩, le_rfl⟩
            rw [Skips, hcustody]
            exact hrow
  · have hopen := ((isDue_eq_true hmarket event.seq).mp hdue).1
    refine ⟨by rw [hkept], by rw [hkept], by rw [hkept], ⟨_, hnotes, fun note hnote =>
      ⟨hdue, hhandled.notes note hnote⟩⟩, ?_, ?_⟩
    · rw [hkept]
      exact nofun
    · rw [hkept]
      intro book' hmarket' _
      obtain rfl := Option.some.inj hmarket'
      refine ⟨book, hmarket, hopen, hhandled.custody, fun seq hskips => ?_⟩
      unfold Skips at hskips ⊢
      rw [hhandled.custody] at hskips
      cases hcustody : book.custody with
      | escrow =>
          rw [hcustody] at hskips
          obtain hbelow | hle := MarketBook.belowWatermark_of_handled hhandled hskips
          · exact .inl hbelow
          · exact .inr ⟨hdue, hle⟩
      | legacy =>
          rw [hcustody] at hskips
          obtain hrow | rfl := hrows seq hskips
          · exact .inl hrow
          · exact .inr ⟨hdue, le_rfl⟩

end FeedWorld

/-! ## runs -/

theorem InOrder.append {notes later : List FeedNote} (h : InOrder notes)
    (hlater : ∀ note ∈ later, note = .due seq ∨ ∃ complete, note = .reduced seq complete)
    (hdone : later ≠ [] → ∀ earlier < seq, .due earlier ∈ notes → .reduced earlier true ∈ notes) :
    InOrder (notes ++ later) := by
  intro before reduced complete after heq earlier hlt hdue
  have hlast : ∀ front, before = notes ++ front →
      later = front ++ .reduced reduced complete :: after →
      .reduced earlier true ∈ before := by
    rintro front rfl rfl
    obtain hnote | ⟨_, hnote⟩ := hlater (.reduced reduced complete)
      (List.mem_append_right _ List.mem_cons_self)
    · cases hnote
    · obtain ⟨rfl, -⟩ := FeedNote.reduced.inj hnote
      refine List.mem_append_left _ (hdone (by simp) earlier hlt ?_)
      obtain hdue | hdue := List.mem_append.mp hdue
      · exact hdue
      · obtain hnote | ⟨_, hnote⟩ := hlater _ (List.mem_append_left _ hdue)
        · exact absurd (FeedNote.due.inj hnote) hlt.ne
        · cases hnote
  obtain ⟨front, hbefore, hfront⟩ | ⟨back, hnotes, hback⟩ := List.append_eq_append_iff.mp heq
  · exact hlast front hbefore hfront
  · cases back with
    | nil => exact hlast [] (by simpa using hnotes.symm) (by simpa using hback.symm)
    | cons note back =>
        obtain ⟨rfl, -⟩ := List.cons.inj hback
        exact h before reduced complete back hnotes earlier hlt hdue

/-- What an open market is owed: a due event it was not reduced over is ahead in the
stream, and no marker stands in its way. -/
structure Owed (stream : List MatchEvent) (world : FeedWorld) (book : MarketBook)
    (notes : List FeedNote) : Prop where
  served : ∀ seq, .due seq ∈ notes → .reduced seq true ∈ notes ∨
    ∃ index ∈ world.lost, ∃ event, stream[index]? = some event ∧ event.seq = seq
  ahead : ∀ index ∈ world.lost, world.reading ≤ index
  unmarked : ∀ index ∈ world.lost, ∀ event, stream[index]? = some event →
    ¬ world.Skips book event.seq

structure Kept (stream : List MatchEvent) (world : FeedWorld) (notes : List FeedNote) : Prop where
  resumes : world.cursor ≤ world.reading
  absent : world.market = none → notes = [] ∧ world.lost = []
  order : InOrder notes
  owed : ∀ book, world.market = some book → book.isOpen = true → Owed stream world book notes

namespace FeedWorld

theorem skips_restart {world : FeedWorld}
    (h : world.restart.Skips { book with cached := none, watermark := none } seq) :
    book.custody = .legacy ∧ seq ∈ world.feedRows := by
  unfold Skips at h
  cases hcustody : book.custody with
  | legacy =>
      simp only [hcustody] at h
      exact ⟨rfl, h⟩
  | escrow =>
      simp only [hcustody] at h
      exact absurd h Bool.false_ne_true

theorem market_restart {world : FeedWorld} {book' : MarketBook}
    (h : world.restart.market = some book') :
    ∃ book, world.market = some book ∧ book' = { book with cached := none, watermark := none } := by
  obtain ⟨book, hmarket, heq⟩ := Option.map_eq_some_iff.mp h
  exact ⟨book, hmarket, heq.symm⟩

end FeedWorld

variable {index : Nat}

section

variable {fixtureId : Nat} {stream : List MatchEvent} (hstream : ScoreStream fixtureId stream)
  {world : FeedWorld} {notes : List FeedNote}

theorem Kept.restart (h : Kept stream world notes) : Kept stream world.restart notes where
  resumes := le_rfl
  absent hmarket := h.absent (Option.map_eq_none_iff.mp hmarket)
  order := h.order
  owed := by
    intro book' hmarket' hopen
    obtain ⟨book, hmarket, rfl⟩ := FeedWorld.market_restart hmarket'
    have howed := h.owed book hmarket hopen
    refine ⟨howed.served, fun index hindex => h.resumes.trans (howed.ahead index hindex),
      fun index hindex event hevent hskips => howed.unmarked index hindex event hevent ?_⟩
    obtain ⟨hcustody, hrow⟩ := FeedWorld.skips_restart hskips
    rw [FeedWorld.Skips, hcustody]
    exact hrow

include hstream in
theorem seq_le {i j : Nat} {a b : MatchEvent} (ha : stream[i]? = some a) (hb : stream[j]? = some b)
    (hle : i ≤ j) : a.seq ≤ b.seq := by
  obtain ⟨hi, rfl⟩ := List.getElem?_eq_some_iff.mp ha
  obtain ⟨hj, rfl⟩ := List.getElem?_eq_some_iff.mp hb
  obtain rfl | hlt := hle.eq_or_lt
  · exact le_rfl
  · exact (List.pairwise_iff_getElem.mp hstream.pairwise i j hi hj hlt).le

include hstream in
theorem index_le {i j : Nat} {a b : MatchEvent} (ha : stream[i]? = some a)
    (hb : stream[j]? = some b) (hle : a.seq ≤ b.seq) : i ≤ j := by
  obtain ⟨hi, rfl⟩ := List.getElem?_eq_some_iff.mp ha
  obtain ⟨hj, rfl⟩ := List.getElem?_eq_some_iff.mp hb
  by_contra hlt
  exact absurd (List.pairwise_iff_getElem.mp hstream.pairwise j i hj hi (by omega)) (by omega)

/-- A due event comes before every event that is still owed. -/
theorem Owed.done_before (h : Owed stream world book notes) (hevent : stream[index]? = some event)
    (hahead : ∀ later ∈ world.lost, index ≤ later) (hstream : ScoreStream fixtureId stream) :
    ∀ earlier < event.seq, .due earlier ∈ notes → .reduced earlier true ∈ notes := by
  intro earlier hlt hdue
  obtain hdone | ⟨later, hlater, other, hother, rfl⟩ := h.served earlier hdue
  · exact hdone
  · exact absurd (seq_le hstream hevent hother (hahead later hlater)) (by omega)

theorem FeedWorld.notes_handle (world : FeedWorld) (hscore : event.kind ≠ .oddsSuspension)
    (faults : Faults) :
    ∀ note ∈ (world.handle event faults).2.2, world.isDue event.seq = true ∧
      (note = .due event.seq ∨ ∃ complete, note = .reduced event.seq complete) := by
  obtain ⟨later, hnotes, hlater⟩ := (world.steps_handle hscore faults).notes
  intro note hnote
  rw [hnotes] at hnote
  obtain hnote | hnote := List.mem_append.mp hnote
  · unfold FeedWorld.dueNotes at hnote
    split at hnote
    · next hdue => exact ⟨hdue, .inl (List.mem_singleton.mp hnote)⟩
    · cases hnote
  · exact ⟨(hlater note hnote).1, .inr (hlater note hnote).2⟩

/-- A due event is noted as such. -/
theorem FeedWorld.due_handle {world : FeedWorld} (hscore : event.kind ≠ .oddsSuspension)
    (h : (world.handle event faults).2.2 ≠ []) : world.isDue event.seq = true := by
  obtain ⟨note, hnote⟩ := List.exists_mem_of_ne_nil _ h
  exact (world.notes_handle hscore faults note hnote).1

section

variable (h : Kept stream world notes)

include h

theorem Kept.order_handle (hevent : stream[index]? = some event)
    (hahead : world.isDue event.seq = true → ∀ later ∈ world.lost, index ≤ later)
    (hscore : event.kind ≠ .oddsSuspension) (faults : Faults)
    (hstream : ScoreStream fixtureId stream) :
    InOrder (notes ++ (world.handle event faults).2.2) := by
  refine h.order.append (fun note hnote => (world.notes_handle hscore faults note hnote).2)
    fun hnotes => ?_
  have hdue := FeedWorld.due_handle hscore hnotes
  cases hmarket : world.market with
  | none => simp [FeedWorld.isDue, hmarket] at hdue
  | some book =>
      have hopen := ((FeedWorld.isDue_eq_true hmarket event.seq).mp hdue).1
      exact (h.owed book hmarket hopen).done_before hevent (hahead hdue) hstream

/-- An event that is not due changes nothing that an open market is owed. -/
theorem Kept.idle (hdue : world.isDue event.seq = false)
    (hscore : event.kind ≠ .oddsSuspension) (faults : Faults) :
    Kept stream (world.handle event faults).1 notes := by
  have hsteps := world.steps_handle hscore faults
  refine ⟨?_, ?_, h.order, ?_⟩
  · rw [hsteps.cursor, hsteps.reading]
    exact h.resumes
  · rw [hsteps.lost]
    exact fun hmarket => h.absent (hsteps.absent hmarket)
  · intro book' hmarket' hopen'
    obtain ⟨book, hmarket, hopen, -, hskips⟩ := hsteps.market book' hmarket' hopen'
    have howed := h.owed book hmarket hopen
    refine ⟨?_, ?_, ?_⟩
    · rw [hsteps.lost]
      exact howed.served
    · rw [hsteps.lost, hsteps.reading]
      exact howed.ahead
    · rw [hsteps.lost]
      intro index hindex event' hevent' hmarked
      obtain hmarked | ⟨htrue, -⟩ := hskips _ hmarked
      · exact howed.unmarked index hindex event' hevent' hmarked
      · rw [hdue] at htrue
        cases htrue

/-- A due event that is reduced is owed no more. -/
theorem Kept.done (hevent : stream[index]? = some event)
    (hdue : world.isDue event.seq = true) (hahead : ∀ later ∈ world.lost, index ≤ later)
    (hscore : event.kind ≠ .oddsSuspension) (hstream : ScoreStream fixtureId stream)
    (hdone : .reduced event.seq true ∈ (world.handle event faults).2.2) :
    Kept stream
      { (world.handle event faults).1 with
        lost := (world.handle event faults).1.lost.filter (· ≠ index) }
      (notes ++ (world.handle event faults).2.2) := by
  have hsteps := world.steps_handle hscore faults
  have hlost : ∀ later ∈ (world.handle event faults).1.lost.filter (· ≠ index),
      later ∈ world.lost ∧ later ≠ index := by
    intro later hlater
    rw [hsteps.lost] at hlater
    simpa using List.mem_filter.mp hlater
  refine ⟨?_, ?_, h.order_handle hevent (fun _ => hahead) hscore faults hstream, ?_⟩
  · simp only [hsteps.cursor, hsteps.reading]
    exact h.resumes
  · intro hmarket
    simp [FeedWorld.isDue, hsteps.absent hmarket] at hdue
  · intro book' hmarket' hopen'
    obtain ⟨book, hmarket, hopen, -, hskips⟩ := hsteps.market book' hmarket' hopen'
    have howed := h.owed book hmarket hopen
    refine ⟨fun seq hseq => ?_, fun later hlater => ?_, fun later hlater other hother hmarked => ?_⟩
    · by_cases hsame : seq = event.seq
      · rw [hsame]
        exact .inl (List.mem_append_right _ hdone)
      · have hold : .due seq ∈ notes := by
          refine (List.mem_append.mp hseq).resolve_right fun hnote => ?_
          obtain hnote | ⟨_, hnote⟩ := (world.notes_handle hscore faults _ hnote).2
          · exact hsame (FeedNote.due.inj hnote)
          · cases hnote
        obtain hreduced | ⟨later, hlater, other, hother, rfl⟩ := howed.served seq hold
        · exact .inl (List.mem_append_left _ hreduced)
        · refine .inr ⟨later, ?_, other, hother, rfl⟩
          rw [hsteps.lost]
          refine List.mem_filter.mpr ⟨hlater, ?_⟩
          have hne : later ≠ index := by
            rintro rfl
            exact hsame (congrArg _ (Option.some.inj (hother.symm.trans hevent)))
          simpa using hne
    · simp only [hsteps.reading]
      exact howed.ahead later (hlost later hlater).1
    · obtain ⟨hlater, hne⟩ := hlost later hlater
      obtain hmarked | ⟨-, hle⟩ := hskips _ hmarked
      · exact howed.unmarked later hlater other hother hmarked
      · exact hne (le_antisymm (index_le hstream hother hevent hle) (hahead later hlater))

/-- A due event whose handling died is still ahead of the restarted stream. -/
theorem Kept.dead (hevent : stream[index]? = some event)
    (hdue : world.isDue event.seq = true) (hahead : ∀ later ∈ world.lost, index ≤ later)
    (hscore : event.kind ≠ .oddsSuspension) (hstream : ScoreStream fixtureId stream)
    (hcursor : world.cursor ≤ index)
    (hunseen : ∀ book, world.market = some book → book.custody = .legacy →
      (world.handle event faults).1.feedRows = world.feedRows) :
    Kept stream
      (FeedWorld.restart { (world.handle event faults).1 with
        lost := index :: (world.handle event faults).1.lost })
      (notes ++ (world.handle event faults).2.2) := by
  have hsteps := world.steps_handle hscore faults
  refine ⟨le_rfl, ?_, h.order_handle hevent (fun _ => hahead) hscore faults hstream, ?_⟩
  · intro hmarket
    simp [FeedWorld.isDue, hsteps.absent (Option.map_eq_none_iff.mp hmarket)] at hdue
  · intro restarted hrestarted hopen'
    obtain ⟨book', hmarket', rfl⟩ := FeedWorld.market_restart hrestarted
    obtain ⟨book, hmarket, hopen, hcustody, -⟩ := hsteps.market book' hmarket' hopen'
    have howed := h.owed book hmarket hopen
    refine ⟨fun seq hseq => ?_, fun later hlater => ?_, fun later hlater other hother hmarked => ?_⟩
    · obtain hnote | hnote := List.mem_append.mp hseq
      · obtain hreduced | ⟨later, hlater, hother⟩ := howed.served seq hnote
        · exact .inl (List.mem_append_left _ hreduced)
        · refine .inr ⟨later, List.mem_cons_of_mem _ ?_, hother⟩
          rw [hsteps.lost]
          exact hlater
      · obtain hnote | ⟨_, hnote⟩ := (world.notes_handle hscore faults _ hnote).2
        · exact .inr ⟨index, List.mem_cons_self, event, hevent, (FeedNote.due.inj hnote).symm⟩
        · cases hnote
    · show (world.handle event faults).1.cursor ≤ later
      rw [hsteps.cursor]
      obtain rfl | hlater := List.mem_cons.mp hlater
      · exact hcursor
      · rw [hsteps.lost] at hlater
        exact h.resumes.trans (howed.ahead later hlater)
    · obtain ⟨hlegacy, hrow⟩ := FeedWorld.skips_restart hmarked
      have hlegacy : book.custody = .legacy := hcustody.symm.trans hlegacy
      have hskips : world.Skips book other.seq := by
        rw [FeedWorld.Skips, hlegacy]
        rw [← hunseen book hmarket hlegacy]
        exact hrow
      obtain rfl | hlater := List.mem_cons.mp hlater
      · obtain rfl := Option.some.inj (hevent.symm.trans hother)
        exact ((FeedWorld.isDue_eq_true hmarket _).mp hdue).2 hskips
      · rw [hsteps.lost] at hlater
        exact howed.unmarked later hlater other hother hskips

/-- A delivery that meets the condition. -/
theorem Kept.deliver (hevent : stream[index]? = some event)
    (hspared : Spared world index event faults)
    (hahead : world.isDue event.seq = true → ∀ later ∈ world.lost, index ≤ later)
    (hstream : ScoreStream fixtureId stream) :
    Kept stream (world.deliver index event faults).1
        (notes ++ (world.deliver index event faults).2.2) ∧
      ((world.deliver index event faults).2.1 ≠ .crashes →
        (world.deliver index event faults).1.reading = world.reading ∧
          ∀ book, (world.deliver index event faults).1.market = some book → book.isOpen = true →
            index ∉ (world.deliver index event faults).1.lost) := by
  have hscore := hstream.score event (List.mem_of_getElem? hevent)
  have hsteps := world.steps_handle hscore faults
  cases hdue : world.isDue event.seq with
  | false =>
      have hquiet : (world.handle event faults).2.2 = [] := by
        by_contra hnotes
        rw [FeedWorld.due_handle hscore hnotes] at hdue
        cases hdue
      have hkept := h.idle hdue hscore faults
      have hworld : (world.deliver index event faults).1 =
          if (world.handle event faults).2.1 = .crashes then (world.handle event faults).1.restart
          else (world.handle event faults).1 := by
        simp [FeedWorld.deliver, FeedWorld.keepLost, hquiet, hdue]
      have hnotes : notes ++ (world.deliver index event faults).2.2 = notes :=
        (congrArg _ hquiet).trans (List.append_nil _)
      have hfate : (world.deliver index event faults).2.1 = (world.handle event faults).2.1 := rfl
      rw [hnotes, hfate, hworld]
      split
      · next hcrash => exact ⟨hkept.restart, fun hlives => absurd hcrash hlives⟩
      · refine ⟨hkept, fun _ => ⟨hsteps.reading, fun book' hmarket' hopen' hlost => ?_⟩⟩
        obtain ⟨book, hmarket, hopen, -⟩ := hsteps.market book' hmarket' hopen'
        rw [hsteps.lost] at hlost
        have hnew := (FeedWorld.isDue_eq_true hmarket event.seq).mpr
          ⟨hopen, (h.owed book hmarket hopen).unmarked index hlost event hevent⟩
        rw [hdue] at hnew
        cases hnew
  | true =>
      by_cases hdone : .reduced event.seq true ∈ (world.handle event faults).2.2
      · have hkept := h.done hevent hdue (hahead hdue) hscore hstream hdone
        have hworld : (world.deliver index event faults).1 =
            if (world.handle event faults).2.1 = .crashes then
              FeedWorld.restart { (world.handle event faults).1 with
                lost := (world.handle event faults).1.lost.filter (· ≠ index) }
            else { (world.handle event faults).1 with
                lost := (world.handle event faults).1.lost.filter (· ≠ index) } := by
          simp only [FeedWorld.deliver, FeedWorld.keepLost, hdone, if_true]
        have hfate : (world.deliver index event faults).2.1 = (world.handle event faults).2.1 := rfl
        rw [hfate, hworld]
        split
        · next hcrash => exact ⟨hkept.restart, fun hlives => absurd hcrash hlives⟩
        · exact ⟨hkept, fun _ => ⟨hsteps.reading, fun _ _ _ => by simp⟩⟩
      · cases hmarket : world.market with
        | none => simp [FeedWorld.isDue, hmarket] at hdue
        | some book =>
            obtain ⟨hunthrown, hends⟩ := hspared book hmarket hdue
            obtain ⟨hcrash, hserved, hrows⟩ := (FeedWorld.handle_done hmarket hdue hunthrown
              (hends.imp_right And.left)).resolve_left hdone
            have hworld : (world.deliver index event faults).1 =
                FeedWorld.restart { (world.handle event faults).1 with
                  lost := index :: (world.handle event faults).1.lost } := by
              simp only [FeedWorld.deliver, FeedWorld.keepLost, hdone, hdue, hcrash, if_true,
                if_false, and_self]
            refine ⟨?_, fun hlives => absurd hcrash hlives⟩
            rw [hworld]
            refine h.dead hevent hdue (hahead hdue) hscore hstream (hends.resolve_left hserved).2 ?_
            intro other hother hlegacy
            obtain rfl := Option.some.inj (hother.symm.trans hmarket)
            exact hrows hlegacy

/-- The cursor moves on past a frame that no open market is owed. -/
theorem Kept.setCursor
    (hclear : ∀ book, world.market = some book → book.isOpen = true → world.reading ∉ world.lost)
    (write : WriteFate) : Kept stream (world.setCursor write) notes := by
  have hmoved : ∀ cursor reading, cursor ≤ reading → reading ≤ world.reading + 1 →
      Kept stream { world with cursor, reading } notes := by
    intro cursor reading hcursor hreading
    refine ⟨hcursor, h.absent, h.order, fun book hmarket hopen => ?_⟩
    have howed := h.owed book hmarket hopen
    refine ⟨howed.served, fun index hindex => ?_, howed.unmarked⟩
    have hne : world.reading ≠ index := by
      rintro rfl
      exact hclear book hmarket hopen hindex
    have hle := howed.ahead index hindex
    show reading ≤ index
    omega
  have hpassed := hmoved (world.reading + 1) (world.reading + 1) le_rfl le_rfl
  cases write with
  | returns => exact hpassed
  | throws landed =>
      cases landed with
      | true => exact hpassed
      | false => exact hmoved world.cursor world.cursor le_rfl (h.resumes.trans (Nat.le_succ _))
  | crashes landed =>
      cases landed with
      | true => exact hpassed.restart
      | false => exact h.restart

/-- What each step keeps. -/
theorem Kept.step {action : FeedAction}
    (hcareful : Careful stream world action) (hstream : ScoreStream fixtureId stream) :
    Kept stream (feedStep stream world action).1 (notes ++ (feedStep stream world action).2) := by
  cases action with
  | frame faults =>
      simp only [feedStep]
      split
      · rw [List.append_nil]
        exact h
      · next event hevent =>
          have hahead : world.isDue event.seq = true →
              ∀ later ∈ world.lost, world.reading ≤ later := by
            intro hdue
            cases hmarket : world.market with
            | none => simp [FeedWorld.isDue, hmarket] at hdue
            | some book =>
                exact (h.owed book hmarket ((FeedWorld.isDue_eq_true hmarket _).mp hdue).1).ahead
          obtain ⟨hkept, hlives⟩ := h.deliver hevent (hcareful event hevent) hahead hstream
          split
          · exact hkept
          · next hcrash =>
              obtain ⟨hreading, hclear⟩ := hlives hcrash
              refine hkept.setCursor (fun book hmarket hopen => ?_) faults.setCursor
              rw [hreading]
              exact hclear book hmarket hopen
  | fill index faults =>
      simp only [feedStep]
      split
      · rw [List.append_nil]
        exact h
      · next event hevent =>
          obtain ⟨hspared, hahead⟩ := hcareful event hevent
          exact (h.deliver hevent hspared hahead hstream).1
  | reconnect =>
      rw [show notes ++ (feedStep stream world .reconnect).2 = notes from List.append_nil _]
      refine ⟨le_rfl, h.absent, h.order, fun book hmarket hopen => ?_⟩
      have howed := h.owed book hmarket hopen
      exact ⟨howed.served, fun index hindex => h.resumes.trans (howed.ahead index hindex),
        howed.unmarked⟩
  | restart =>
      rw [show notes ++ (feedStep stream world .restart).2 = notes from List.append_nil _]
      exact h.restart
  | create custody fixed lineup =>
      simp only [feedStep]
      split
      · rw [List.append_nil]
        exact h
      · next hmarket =>
          obtain ⟨hnotes, hlost⟩ := h.absent hmarket
          rw [List.append_nil, hnotes]
          refine ⟨h.resumes, nofun, by simp [InOrder], fun book _ _ => ⟨nofun, ?_, ?_⟩⟩
          · simp [hlost]
          · simp [hlost]
  | close status =>
      rw [show notes ++ (feedStep stream world (.close status)).2 = notes from List.append_nil _]
      refine ⟨h.resumes, fun hmarket => h.absent (Option.map_eq_none_iff.mp hmarket), h.order, ?_⟩
      intro book' hmarket' hopen'
      obtain ⟨book, hmarket, rfl⟩ := Option.map_eq_some_iff.mp hmarket'
      split_ifs at hopen' with hterminal
      · simp [MarketBook.isOpen, hterminal] at hopen'
      · have howed := h.owed book hmarket hopen'
        rw [if_neg hterminal]
        exact ⟨howed.served, howed.ahead, howed.unmarked⟩

theorem Kept.unblinded (hstream : ScoreStream fixtureId stream) :
    Unblinded stream world notes := by
  refine ⟨fun book hmarket hopen seq hdue hmarked => ?_, h.order⟩
  have howed := h.owed book hmarket hopen
  obtain hdone | ⟨index, hindex, event, hevent, rfl⟩ := howed.served seq hdue
  · exact hdone
  · obtain hskips | ⟨passed, hpassed, other, hother, hseq⟩ := hmarked
    · exact absurd hskips (howed.unmarked index hindex event hevent)
    · have hle := index_le hstream hevent hother hseq.ge
      have hahead := h.resumes.trans (howed.ahead index hindex)
      omega

end

end

/-- A market is not made blind: where every step meets the condition, a mark that skips
an event means that the market was reduced over it, in order. -/
theorem markers_sound {fixtureId : Nat} {stream : List MatchEvent}
    (hstream : ScoreStream fixtureId stream) {start : FeedWorld} (hmarket : start.market = none)
    (hlost : start.lost = []) (hcursor : start.cursor ≤ start.reading) {actions : List FeedAction}
    (hcareful : Along (feedStep stream) (Careful stream) start actions) :
    Unblinded stream (execute (feedStep stream) start actions).1
      (execute (feedStep stream) start actions).2 := by
  have hstart : Kept stream start [] :=
    ⟨hcursor, fun _ => ⟨rfl, hlost⟩, by simp [InOrder], by simp [hmarket]⟩
  have hkept := execute_trace_along (I := Kept stream)
    (fun world notes action h hcareful => h.step hcareful hstream) hstart hcareful
  exact Kept.unblinded hkept hstream

namespace Sample

/-- Every call returns. -/
def noFaults : Faults where
  insertFeedEvent := .returns
  updateFixture := .returns
  openMarkets := .returns
  narrateGoal := .returns
  diesBefore := false
  positionsForMarket := .returns
  positions := []
  write := fun _ => .returns
  schedulerMarkets := .returns
  schedulerPositions := .returns
  loadMarket := .returns
  context := true
  requests := .returns
  diesAfter := false
  setCursor := .returns

/-- The process dies before the feed row is there. -/
def diesFirst : Faults := { noFaults with insertFeedEvent := .crashes false }

/-- The positions of the market are not read. -/
def positionsThrow : Faults := { noFaults with positionsForMarket := .throws }

def unopened : FeedWorld :=
  { feedRows := [], cursor := 0, reading := 0, market := none, lost := [] }

def createLegacy : FeedAction := .create .legacy { spec := twoGoals, isReplay := false } false

def oneGoal : List MatchEvent := [feedEvent .goal 10 .h1 1]

def diesOnce : List FeedAction := [createLegacy, .frame diesFirst, .frame noFaults]

theorem scoreStream_oneGoal : ScoreStream 17 oneGoal where
  ordered := by decide
  fixture := by decide
  score := by decide

theorem careful_diesOnce : Along (feedStep oneGoal) (Careful oneGoal) unopened diesOnce := by
  have hserved : ∀ custody, noFaults.Served custody := by
    intro custody
    cases custody <;> simp [Faults.Served, noFaults]
  refine ⟨trivial, fun _ _ _ _ _ => ⟨?_, .inr ⟨fun _ => rfl, le_rfl⟩⟩,
    fun _ _ _ _ _ => ⟨?_, .inl (hserved _)⟩, trivial⟩
  · constructor <;> simp [diesFirst, noFaults, WriteFate.fate]
  · constructor <;> simp [noFaults, WriteFate.fate]

theorem reduced_diesOnce :
    .reduced 10 true ∈ (execute (feedStep oneGoal) unopened diesOnce).2 := by
  have hunblinded : Unblinded oneGoal (execute (feedStep oneGoal) unopened diesOnce).1
      (execute (feedStep oneGoal) unopened diesOnce).2 :=
    markers_sound scoreStream_oneGoal rfl rfl le_rfl careful_diesOnce
  have hmarked : ((execute (feedStep oneGoal) unopened diesOnce).1.market.any fun book =>
      book.isOpen ∧ (execute (feedStep oneGoal) unopened diesOnce).1.Skips book 10) = true := by
    decide +kernel
  obtain ⟨book, hmarket, hbook⟩ := (Option.any_eq_true _ _).mp hmarked
  obtain ⟨hopen, hskips⟩ := of_decide_eq_true hbook
  exact hunblinded.marks book hmarket hopen 10 (by decide +kernel) (.inl hskips)

/-- The feed row is there, the market has not seen the goal. -/
theorem throw_blinds_market : ¬ ∀ (fixtureId : Nat) (stream : List MatchEvent) (start : FeedWorld)
    (actions : List FeedAction), ScoreStream fixtureId stream → start.market = none →
    start.lost = [] → start.cursor ≤ start.reading →
    Unblinded stream (execute (feedStep stream) start actions).1
      (execute (feedStep stream) start actions).2 := by
  intro h
  have hunblinded := h 17 oneGoal unopened [createLegacy, .frame positionsThrow] scoreStream_oneGoal
    rfl rfl le_rfl
  have hreduced := hunblinded.marks _ rfl rfl 10 (by decide +kernel) (.inl (by decide +kernel))
  exact absurd hreduced (by decide +kernel)

end Sample

end CalledIt.Engine
