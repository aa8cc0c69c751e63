import CalledIt.Indexer.TransactionLogs

/-!
# CalledIt.Indexer.Attribution

Which events the source finds in the log of a transaction, and under which instruction.

As long as no program logs a text that reads as an invocation, and what the program itself
emits can be decoded, the stack of the source is the one of the runtime and every event is
found where it is (`eventLogs_printTransaction`).  Any other text, and any other payload,
breaks some transaction (`attribution_iff`).
-/

namespace CalledIt.Indexer.Logs

open Lib

variable (programId : ProgramId)

/-! ## the stack of the runtime -/

theorem readLog_invoke_next (stack : List (Option String)) (top : Int)
    (events : List LocatedEvent) (program : ProgramId) (hroom : stack.length + 1 < 2 ^ 32) :
    readLog programId.text ⟨stack, top, events⟩
        (programLine program.text ("invoke [" ++ toString (stack.length + 1) ++ "]")) =
      .ok ⟨stack ++ [some program.text], top + if stack = [] then 1 else 0, events⟩ := by
  rw [readLog_invoke _ _ program (by omega) hroom]
  simp [setLength]

mutual

/-- What a program prints is read back, and the stack is as before. -/
theorem readEntry (stack : List (Option String)) (running : ProgramId) (top : Int)
    (events : List LocatedEvent) (entry : LogEntry)
    (htexts : ∀ text ∈ entryTexts entry, readsInvocation text = false)
    (hpayloads : ∀ slices ∈ entryPayloads programId running entry, Decodable slices)
    (hroom : stack.length + 1 + (printEntry (stack.length + 2) running entry).length < 2 ^ 32) :
    (printEntry (stack.length + 2) running entry).foldlM (readLog programId.text)
        ⟨stack ++ [some running.text], top, events⟩ =
      .ok ⟨stack ++ [some running.text], top,
        events ++ (entryEvents programId running entry).map (⟨top, ·⟩)⟩ := by
  match entry with
  | .log text =>
      rw [printEntry, List.foldlM_cons, readLog_log programId.text stack running top events
        (htexts text (by simp [entryTexts]))]
      simp [entryEvents, bind, Except.bind, pure, Except.pure]
  | .data slices =>
      rw [printEntry, List.foldlM_cons, readLog_data programId.text stack running top events
        fun hrunning => hpayloads slices (by simp [entryPayloads, hrunning])]
      simp [entryEvents, bind, Except.bind, pure, Except.pure]
  | .remaining units =>
      rw [printEntry, List.foldlM_cons, readLog_remaining]
      simp [entryEvents, bind, Except.bind, pure, Except.pure]
  | .consumed units limit =>
      rw [printEntry, List.foldlM_cons, readLog_consumed]
      simp [entryEvents, bind, Except.bind, pure, Except.pure]
  | .invoke program body =>
      rw [entryTexts] at htexts
      rw [entryPayloads] at hpayloads
      rw [printEntry, List.length_cons, List.length_append, List.length_singleton] at hroom
      have hopen := readLog_invoke_next programId (stack ++ [some running.text]) top events program
        (by rw [List.length_append, List.length_singleton]; omega)
      have hinside : stack.length + 1 + 1 +
          (printEntries (stack.length + 1 + 2) program body).length < 2 ^ 32 := by
        show _ + (printEntries (stack.length + 2 + 1) program body).length < _
        omega
      have hbody := readEntries (stack ++ [some running.text]) program top events body htexts
        hpayloads (by rwa [List.length_append, List.length_singleton])
      have hclose := readLog_success programId.text program (stack ++ [some running.text]) top
        (events ++ (entriesEvents programId program body).map (⟨top, ·⟩))
      rw [List.length_append, List.length_singleton] at hopen hbody
      rw [if_neg (by simp), Int.add_zero] at hopen
      rw [printEntry, entryEvents, List.foldlM_cons, hopen]
      show (printEntries (stack.length + 2 + 1) program body ++ _).foldlM _ _ = _
      rw [List.foldlM_append, hbody]
      show List.foldlM _ _ _ = _
      rw [List.foldlM_cons, hclose]
      rfl

theorem readEntries (stack : List (Option String)) (running : ProgramId) (top : Int)
    (events : List LocatedEvent) (entries : List LogEntry)
    (htexts : ∀ text ∈ entriesTexts entries, readsInvocation text = false)
    (hpayloads : ∀ slices ∈ entriesPayloads programId running entries, Decodable slices)
    (hroom : stack.length + 1 + (printEntries (stack.length + 2) running entries).length < 2 ^ 32) :
    (printEntries (stack.length + 2) running entries).foldlM (readLog programId.text)
        ⟨stack ++ [some running.text], top, events⟩ =
      .ok ⟨stack ++ [some running.text], top,
        events ++ (entriesEvents programId running entries).map (⟨top, ·⟩)⟩ := by
  match entries with
  | [] => simp [printEntries, entriesEvents, pure, Except.pure]
  | entry :: entries =>
      rw [entriesTexts, List.forall_mem_append] at htexts
      rw [entriesPayloads, List.forall_mem_append] at hpayloads
      rw [printEntries, List.length_append] at hroom
      have hfirst := readEntry stack running top events entry htexts.1 hpayloads.1 (by omega)
      rw [printEntries, List.foldlM_append, hfirst]
      show List.foldlM _ _ _ = _
      rw [readEntries stack running top _ entries htexts.2 hpayloads.2 (by omega), entriesEvents,
        List.map_append, List.append_assoc]

end

theorem readInstruction (top : Int) (events : List LocatedEvent) (instruction : Instruction)
    (htexts : ∀ text ∈ entriesTexts instruction.body, readsInvocation text = false)
    (hpayloads : ∀ slices ∈ entriesPayloads programId instruction.program instruction.body,
      Decodable slices)
    (hroom : (printInstruction instruction).length < 2 ^ 32) :
    (printInstruction instruction).foldlM (readLog programId.text) ⟨[], top, events⟩ =
      .ok ⟨[], top + 1, events ++
        (entriesEvents programId instruction.program instruction.body).map (⟨top + 1, ·⟩)⟩ := by
  rw [printInstruction, List.length_cons, List.length_append, List.length_singleton] at hroom
  have hopen := readLog_invoke_next programId [] top events instruction.program (by decide)
  have hbody := readEntries programId [] instruction.program (top + 1) events instruction.body
    htexts hpayloads (by rw [List.length_nil, Nat.zero_add, Nat.zero_add]; omega)
  have hclose := readLog_success programId.text instruction.program [] (top + 1)
    (events ++ (entriesEvents programId instruction.program instruction.body).map (⟨top + 1, ·⟩))
  rw [if_pos rfl] at hopen
  rw [printInstruction, List.foldlM_cons,
    show "invoke [1]" = "invoke [" ++ toString (([] : List (Option String)).length + 1) ++ "]" by
      decide, hopen]
  show (printEntries 2 instruction.program instruction.body ++ _).foldlM _ _ = _
  rw [List.foldlM_append]
  rw [List.length_nil, Nat.zero_add] at hbody
  rw [List.nil_append] at hbody hclose ⊢
  rw [hbody]
  show List.foldlM _ _ _ = _
  rw [List.foldlM_cons, hclose]
  rfl

theorem readTransaction (transaction : List Instruction) (top : Int) (events : List LocatedEvent)
    (htexts : ∀ text ∈ texts transaction, readsInvocation text = false)
    (hpayloads : ∀ slices ∈ payloads programId transaction, Decodable slices)
    (hroom : (printTransaction transaction).length < 2 ^ 32) :
    ∃ final, (printTransaction transaction).foldlM (readLog programId.text) ⟨[], top, events⟩ =
      .ok ⟨[], final, events ++ located programId (top + 1) transaction⟩ := by
  induction transaction generalizing top events with
  | nil => exact ⟨top, by simp [printTransaction, located, pure, Except.pure]⟩
  | cons instruction transaction ih =>
      rw [texts, List.flatMap_cons, List.forall_mem_append] at htexts
      rw [payloads, List.flatMap_cons, List.forall_mem_append] at hpayloads
      rw [printTransaction, List.flatMap_cons, List.length_append] at hroom
      have hfirst := readInstruction programId top events instruction htexts.1 hpayloads.1
        (by omega)
      obtain ⟨final, hrest⟩ := ih (top + 1) (events ++
        (entriesEvents programId instruction.program instruction.body).map (⟨top + 1, ·⟩))
        htexts.2 hpayloads.2 (by rw [printTransaction]; omega)
      refine ⟨final, ?_⟩
      rw [printTransaction, List.flatMap_cons, List.foldlM_append, hfirst, ← printTransaction]
      show List.foldlM _ _ _ = _
      rw [hrest, located, List.append_assoc]

/-- Every event of the program is found, under the index of its instruction. -/
theorem eventLogs_printTransaction {transaction : List Instruction}
    (htexts : ∀ text ∈ texts transaction, readsInvocation text = false)
    (hpayloads : ∀ slices ∈ payloads programId transaction, Decodable slices)
    (hroom : (printTransaction transaction).length < 2 ^ 32) :
    eventLogs (printTransaction transaction) programId.text =
      .ok (located programId 0 transaction) := by
  obtain ⟨final, hread⟩ := readTransaction programId transaction (-1) [] htexts hpayloads hroom
  rw [eventLogs, hread]
  rfl

/-! ## what breaks it -/

variable {programId}

/-- The bytes of an event of the program, as one slice. -/
theorem decodable_of_eventBytes (event : Escrow.ProgramEvent) {bytes : List UInt8}
    (h : Sdk.EventBytes event bytes) : Decodable [bytes] := by
  refine ⟨Sdk.programEvent event, ?_⟩
  rw [decodePayload, dataText, String.toList_ofList, List.map_singleton,
    List.intercalate_singleton, fromBase64_base64]
  exact Sdk.inverts_event.decodes event bytes h

variable (programId) in
/-- A text that reads as an invocation puts `log:` on the stack, or is refused. -/
theorem readLog_misread (state : LogState) {text : String} (h : readsInvocation text = true) :
    (∃ error, readLog programId.text state (programLine "log:" text) = .error error) ∨
      ∃ stack top, readLog programId.text state (programLine "log:" text) =
        .ok ⟨stack ++ [some "log:"], top, state.events⟩ := by
  obtain ⟨digits, hdigits⟩ := Option.isSome_iff_exists.mp h
  rw [readLog, invocation_programLine _ (by decide) logWord_isTrimmed, hdigits]
  simp only [Option.map_some]
  split_ifs
  · exact .inl ⟨_, rfl⟩
  · exact .inl ⟨_, rfl⟩
  · exact .inr ⟨_, _, rfl⟩
  · exact .inr ⟨_, _, rfl⟩

/-- Data that comes with another program on the stack is not read. -/
theorem readLog_foreign_data (state : LogState) (slices : List (List UInt8))
    (hother : state.stack.getLast? ≠ some (some programId.text)) :
    readLog programId.text state (programLine "data:" (dataText slices)) = .ok state := by
  rw [readLog, invocation_programLine _ (by decide) dataWord_isTrimmed, depthText_dataText,
    completion_programLine _ (by decide) dataWord_isTrimmed, completes_dataText]
  simp [hother]

variable (programId) in
/-- The completion of a program that is not on top of the stack. -/
theorem readLog_foreign_success (state : LogState) (program : ProgramId)
    (hother : state.stack.getLast? ≠ some (some program.text)) :
    readLog programId.text state (programLine program.text "success") = .ok state :=
  readLog_quiet programId.text state program.nonempty program.isTrimmed_eq
    (depthText_none (by decide)) (fun _ => hother) (program.text_ne _ (by decide))

/-- A transaction of one instruction, of the program itself. -/
def probe (programId : ProgramId) (body : List LogEntry) : List Instruction := [⟨programId, body⟩]

theorem eventLogs_probe (body : List LogEntry) :
    eventLogs (printTransaction (probe programId body)) programId.text =
      ((printEntries 2 programId body ++ [programLine programId.text "success"]).foldlM
        (readLog programId.text) ⟨[some programId.text], 0, []⟩).map (·.events) := by
  have hopen := readLog_invoke_next programId [] (-1) [] programId (by decide)
  have hline : "invoke [1]" =
      "invoke [" ++ toString (([] : List (Option String)).length + 1) ++ "]" := by decide
  rw [eventLogs, probe, printTransaction, List.flatMap_singleton, printInstruction, hline,
    List.foldlM_cons, hopen]
  rfl

theorem probe_log_ne {text : String} {slices : List (List UInt8)}
    (htext : readsInvocation text = true) (hslices : Decodable slices) :
    eventLogs (printTransaction (probe programId [.log text, .data slices])) programId.text ≠
      .ok (located programId 0 (probe programId [.log text, .data slices])) := by
  have hprint : printEntries 2 programId [.log text, .data slices] ++
      [programLine programId.text "success"] =
        [programLine "log:" text, programLine "data:" (dataText slices),
          programLine programId.text "success"] := by
    simp [printEntries, printEntry]
  obtain ⟨event, hevent⟩ := hslices
  have hlocated : located programId 0 (probe programId [.log text, .data slices]) = [⟨0, event⟩] := by
    simp [located, probe, entriesEvents, entryEvents, hevent, Except.toOption]
  rw [eventLogs_probe, hprint, List.foldlM_cons, hlocated]
  obtain ⟨error, hread⟩ | ⟨stack, top, hread⟩ :=
    readLog_misread programId ⟨[some programId.text], 0, []⟩ htext
  · rw [hread]
    simp [bind, Except.bind, Except.map]
  · have hother : (stack ++ [some "log:"]).getLast? ≠ some (some programId.text) := by
      simpa using (programId.text_ne "log:" (by decide)).symm
    have hdata := readLog_foreign_data ⟨stack ++ [some "log:"], top, []⟩ slices hother
    have hclose := readLog_foreign_success programId ⟨stack ++ [some "log:"], top, []⟩ programId
      hother
    rw [hread]
    show Except.map _ (List.foldlM _ _ _) ≠ _
    rw [List.foldlM_cons, hdata]
    show Except.map _ (List.foldlM _ _ _) ≠ _
    rw [List.foldlM_cons, hclose]
    simp [bind, Except.bind, pure, Except.pure, Except.map]

theorem probe_data_ne {slices : List (List UInt8)} (hslices : ¬ Decodable slices) :
    eventLogs (printTransaction (probe programId [.data slices])) programId.text ≠
      .ok (located programId 0 (probe programId [.data slices])) := by
  have hprint : printEntries 2 programId [.data slices] ++
      [programLine programId.text "success"] =
        [programLine "data:" (dataText slices), programLine programId.text "success"] := by
    simp [printEntries, printEntry]
  cases hpayload : decodePayload slices with
  | ok event => exact absurd ⟨event, hpayload⟩ hslices
  | error error =>
      have hread : readLog programId.text ⟨[some programId.text], 0, []⟩
          (programLine "data:" (dataText slices)) = .error (.decode error) := by
        rw [readLog, invocation_programLine _ (by decide) dataWord_isTrimmed, depthText_dataText,
          completion_programLine _ (by decide) dataWord_isTrimmed, completes_dataText]
        simp [decodeEscrowEventLog_data, hpayload, Except.map]
      rw [eventLogs_probe, hprint, List.foldlM_cons, hread]
      simp [bind, Except.bind, Except.map]

/-! ## attribution -/

theorem length_zeroKey : (List.replicate 32 (0 : UInt8)).length = 32 := rfl

/-- The event of a program that is paused. -/
def paused : Escrow.ProgramEvent :=
  .protocolPauseChanged ⟨true, ⟨List.replicate 32 0, length_zeroKey⟩⟩

/-- Where programs log the texts and the program emits what can be decoded and the other
payloads: every event of the program is found under the index of its instruction, and
nothing else, exactly if no text reads as an invocation and all of the payloads can be
decoded.  An array has fewer than `2 ^ 32` lines. -/
theorem attribution_iff (programId : ProgramId) (logged : Set String)
    (emitted : Set (List (List UInt8))) :
    (∀ transaction : List Instruction,
      (∀ text ∈ texts transaction, text ∈ logged) →
      (∀ slices ∈ payloads programId transaction, Decodable slices ∨ slices ∈ emitted) →
      (printTransaction transaction).length < 2 ^ 32 →
      eventLogs (printTransaction transaction) programId.text =
        .ok (located programId 0 transaction)) ↔
      (∀ text ∈ logged, readsInvocation text = false) ∧
        ∀ slices ∈ emitted, Decodable slices := by
  constructor
  · intro hall
    constructor
    · intro text hlogged
      rw [← Bool.not_eq_true]
      intro hreads
      have hsample : Decodable [_] := decodable_of_eventBytes paused rfl
      refine probe_log_ne hreads hsample (hall _ ?_ ?_ ?_)
      · simpa [texts, probe, entriesTexts, entryTexts] using hlogged
      · simpa [payloads, probe, entriesPayloads, entryPayloads] using .inl hsample
      · simp [printTransaction, probe, printInstruction, printEntries, printEntry]
    · intro slices hemitted
      by_contra hslices
      refine probe_data_ne hslices (hall _ ?_ ?_ ?_)
      · simp [texts, probe, entriesTexts, entryTexts]
      · simpa [payloads, probe, entriesPayloads, entryPayloads] using .inr hemitted
      · simp [printTransaction, probe, printInstruction, printEntries, printEntry]
  · rintro ⟨htexts, hemitted⟩ transaction hlogged hpayloads hroom
    exact eventLogs_printTransaction programId (fun text hmem => htexts text (hlogged text hmem))
      (fun slices hmem => (hpayloads slices hmem).elim id (hemitted slices)) hroom

namespace Sample

def escrow : ProgramId :=
  ⟨"Escrow", by decide, List.all_iff_forall_prop.mp (by decide +kernel)⟩

def noisy : ProgramId :=
  ⟨"Noisy", by decide, List.all_iff_forall_prop.mp (by decide +kernel)⟩

/-- The program is paused. -/
def pause : LogEntry :=
  .data [Sdk.escrowEventDiscriminators .protocolPauseChanged ++ paused.payload]

/-- Another program logs a text before. -/
def shifted : List Instruction := [⟨noisy, [.log "invoke [1]"]⟩, ⟨escrow, [pause]⟩]

/-- A program that is invoked logs a text. -/
def silenced : List Instruction := [⟨escrow, [.invoke noisy [.log "invoke [1]"], pause]⟩]

end Sample

open Sample in
/-- One text moves the event to an instruction that does not exist, another hides it. -/
theorem text_moves_event :
    eventLogs (printTransaction shifted) escrow.text = .ok [⟨2, Sdk.programEvent paused⟩] ∧
      located escrow 0 shifted = [⟨1, Sdk.programEvent paused⟩] ∧
        eventLogs (printTransaction silenced) escrow.text = .ok [] ∧
          located escrow 0 silenced = [⟨0, Sdk.programEvent paused⟩] := by
  decide +kernel

end CalledIt.Indexer.Logs
