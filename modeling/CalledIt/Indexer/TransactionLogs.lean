import CalledIt.Engine.Compile
import CalledIt.Indexer.FinalizedIndexer
import CalledIt.Lib.Base58
import CalledIt.Lib.Texts
import CalledIt.Sdk.EventDecoders
import Mathlib.Data.Bool.AllAny

/-!
# CalledIt.Indexer.TransactionLogs

The lines of a transaction's log, as texts (`eventLogs` of `solana-finalized-source.ts`).

The source tells the lines apart by two patterns.  The runtime prints the lines, but the
text behind `Program log:` is chosen by the program, and a line of it can look like one of
the runtime's.
-/

namespace CalledIt.Indexer.Logs

open Lib
open Engine (isTrimmed)
open Sdk (DecodeError decodeEscrowEvent)

/-! ## patterns -/

/-- `^Program (\S+) ` and what follows. -/
def programWord (log : List Char) : Option (List Char × List Char) :=
  ("Program ".toList.isPrefixOf? log).bind fun rest =>
    match rest.takeWhile (!isTrimmed ·), rest.dropWhile (!isTrimmed ·) with
    | c :: word, ' ' :: after => some (c :: word, after)
    | _, _ => none

/-- `invoke \[(\d+)]$` -/
def depthText (after : List Char) : Option (List Char) :=
  ("invoke [".toList.isPrefixOf? after).bind fun rest =>
    if rest.getLast? = some ']' ∧ rest.dropLast ≠ [] ∧ rest.dropLast.all (·.isDigit) then
      some rest.dropLast
    else none

/-- What `.` does not match. -/
def isLineTerminator (c : Char) : Bool :=
  c = '\n' ∨ c = '\r' ∨ c = Char.ofNat 0x2028 ∨ c = Char.ofNat 0x2029

/-- `(?:success|failed:.*)$` -/
def completes (after : List Char) : Bool :=
  after = "success".toList ∨
    ("failed:".toList.isPrefixOf? after).any (·.all (!isLineTerminator ·))

/-- `/^Program (\S+) invoke \[(\d+)]$/` -/
def invocation (log : List Char) : Option (List Char × List Char) :=
  (programWord log).bind fun (word, after) => (depthText after).map (word, ·)

/-- `/^Program (\S+) (?:success|failed:.*)$/` -/
def completion (log : List Char) : Option (List Char) :=
  (programWord log).bind fun (word, after) => if completes after then some word else none

/-! ## reading -/

inductive LogsError
  | malformedLogs
  | invalidArrayLength
  | decode (error : DecodeError)
  deriving DecidableEq, Repr

structure LocatedEvent where
  instructionIndex : Int
  event : Sdk.EscrowProgramEvent
  deriving DecidableEq, Repr

/-- The programs that run, outermost first, and the events so far. -/
structure LogState where
  stack : List (Option String)
  topLevelInstruction : Int
  events : List LocatedEvent

def maxSafeInteger : Nat := 2 ^ 53 - 1

def decodeEscrowEventLog (log : String) : Except DecodeError (Option Sdk.EscrowProgramEvent) :=
  match "Program data: ".toList.isPrefixOf? log.toList with
  | none => .ok none
  | some text => (decodeEscrowEvent (fromBase64 text)).map some

def readLog (programId : String) (state : LogState) (log : String) : Except LogsError LogState :=
  match invocation log.toList with
  | some (invokedProgram, depthText) =>
      let depth := Nat.ofDigitChars 10 depthText 0
      if depth > maxSafeInteger ∨ depth < 1 then .error .malformedLogs
      -- an array has room for fewer than 2 ^ 32 programs
      else if depth ≥ 2 ^ 32 then .error .invalidArrayLength
      else .ok
        { state with
          stack := setLength state.stack (depth - 1) ++ [some (String.ofList invokedProgram)]
          topLevelInstruction := state.topLevelInstruction + if depth = 1 then 1 else 0 }
  | none =>
      match completion log.toList with
      | some program =>
          if state.stack.getLast? = some (some (String.ofList program)) then
            .ok { state with stack := state.stack.dropLast }
          else .ok state
      | none =>
          if state.stack.getLast? = some (some programId) then
            match decodeEscrowEventLog log with
            | .error error => .error (.decode error)
            | .ok event => .ok
                { state with
                  events := state.events ++
                    event.toList.map ({ instructionIndex := state.topLevelInstruction, event := · }) }
          else .ok state

def eventLogs (logs : List String) (programId : String) : Except LogsError (List LocatedEvent) :=
  (logs.foldlM (readLog programId) ⟨[], -1, []⟩).map (·.events)

/-! ## what a transaction prints -/

/-- The address of a program, in base 58. -/
structure ProgramId where
  text : String
  nonempty : text ≠ ""
  base58 : ∀ c ∈ text.toList, c ∈ base58Alphabet

/-- What a program does, as far as the log tells: texts and data of its own, the two lines
about compute units, and the programs it invokes. -/
inductive LogEntry
  | log (text : String)
  | data (slices : List (List UInt8))
  | remaining (units : Nat)
  | consumed (units limit : Nat)
  | invoke (program : ProgramId) (body : List LogEntry)

/-- An instruction of a transaction. -/
structure Instruction where
  program : ProgramId
  body : List LogEntry

def programLine (word after : String) : String := "Program " ++ word ++ " " ++ after

/-- The slices of a data entry, in base 64 with a space between them. -/
def dataText (slices : List (List UInt8)) : String :=
  String.ofList ([' '].intercalate (slices.map base64))

mutual

def printEntry (depth : Nat) (running : ProgramId) : LogEntry → List String
  | .log text => [programLine "log:" text]
  | .data slices => [programLine "data:" (dataText slices)]
  | .remaining units => [programLine "consumption:" (toString units ++ " units remaining")]
  | .consumed units limit =>
      [programLine running.text
        ("consumed " ++ toString units ++ " of " ++ toString limit ++ " compute units")]
  | .invoke program body =>
      programLine program.text ("invoke [" ++ toString depth ++ "]") ::
        (printEntries (depth + 1) program body ++ [programLine program.text "success"])

def printEntries (depth : Nat) (running : ProgramId) : List LogEntry → List String
  | [] => []
  | entry :: entries => printEntry depth running entry ++ printEntries depth running entries

end

def printInstruction (instruction : Instruction) : List String :=
  programLine instruction.program.text "invoke [1]" ::
    (printEntries 2 instruction.program instruction.body ++
      [programLine instruction.program.text "success"])

def printTransaction (transaction : List Instruction) : List String :=
  transaction.flatMap printInstruction

/-! ## what is in it -/

/-- The payload as the client decodes it. -/
def decodePayload (slices : List (List UInt8)) : Except DecodeError Sdk.EscrowProgramEvent :=
  decodeEscrowEvent (fromBase64 (dataText slices).toList)

def Decodable (slices : List (List UInt8)) : Prop := ∃ event, decodePayload slices = .ok event

section

variable (programId : ProgramId)

mutual

/-- The events that the program emits itself, while some program runs. -/
def entryEvents (running : ProgramId) : LogEntry → List Sdk.EscrowProgramEvent
  | .data slices =>
      if running.text = programId.text then (decodePayload slices).toOption.toList else []
  | .invoke program body => entriesEvents program body
  | _ => []

def entriesEvents (running : ProgramId) : List LogEntry → List Sdk.EscrowProgramEvent
  | [] => []
  | entry :: entries => entryEvents running entry ++ entriesEvents running entries

end

mutual

/-- The payloads that the program emits itself. -/
def entryPayloads (running : ProgramId) : LogEntry → List (List (List UInt8))
  | .data slices => if running.text = programId.text then [slices] else []
  | .invoke program body => entriesPayloads program body
  | _ => []

def entriesPayloads (running : ProgramId) : List LogEntry → List (List (List UInt8))
  | [] => []
  | entry :: entries => entryPayloads running entry ++ entriesPayloads running entries

end

/-- The events of a transaction: each has the index of its instruction. -/
def located (index : Int) : List Instruction → List LocatedEvent
  | [] => []
  | instruction :: instructions =>
      (entriesEvents programId instruction.program instruction.body).map (⟨index, ·⟩) ++
        located (index + 1) instructions

def payloads (transaction : List Instruction) : List (List (List UInt8)) :=
  transaction.flatMap fun instruction =>
    entriesPayloads programId instruction.program instruction.body

end

mutual

/-- The texts that programs log. -/
def entryTexts : LogEntry → List String
  | .log text => [text]
  | .invoke _ body => entriesTexts body
  | _ => []

def entriesTexts : List LogEntry → List String
  | [] => []
  | entry :: entries => entryTexts entry ++ entriesTexts entries

end

def texts (transaction : List Instruction) : List String :=
  transaction.flatMap fun instruction => entriesTexts instruction.body

/-- The text is `invoke [` and digits and `]`. -/
def readsInvocation (text : String) : Bool := (depthText text.toList).isSome

/-! ## one line -/

theorem isPrefixOf?_append {α : Type} [BEq α] [LawfulBEq α] (xs ys : List α) :
    xs.isPrefixOf? (xs ++ ys) = some ys :=
  List.isPrefixOf?_eq_some_iff_append_eq.mpr rfl

theorem programWord_programLine {word : String} (after : String) (hne : word ≠ "")
    (hword : ∀ c ∈ word.toList, isTrimmed c = false) :
    programWord (programLine word after).toList = some (word.toList, after.toList) := by
  have hline : (programLine word after).toList =
      "Program ".toList ++ (word.toList ++ ' ' :: after.toList) := by
    simp [programLine]
  have htake : (word.toList ++ ' ' :: after.toList).takeWhile (!isTrimmed ·) = word.toList := by
    rw [List.takeWhile_append_of_pos (by simpa using hword)]
    simp [isTrimmed]
  have hdrop : (word.toList ++ ' ' :: after.toList).dropWhile (!isTrimmed ·) =
      ' ' :: after.toList := by
    rw [List.dropWhile_append_of_pos (by simpa using hword)]
    simp [isTrimmed]
  rw [programWord, hline, isPrefixOf?_append, Option.bind_some, htake, hdrop]
  cases hchars : word.toList with
  | nil => exact absurd (String.toList_eq_nil_iff.mp hchars) hne
  | cons c cs => rfl

theorem logWord_isTrimmed : ∀ c ∈ "log:".toList, isTrimmed c = false :=
  List.all_iff_forall_prop.mp (by decide)

theorem dataWord_isTrimmed : ∀ c ∈ "data:".toList, isTrimmed c = false :=
  List.all_iff_forall_prop.mp (by decide)

theorem ProgramId.isTrimmed_eq (program : ProgramId) :
    ∀ c ∈ program.text.toList, isTrimmed c = false := by
  have hall : ∀ c ∈ base58Alphabet, isTrimmed c = false :=
    List.all_iff_forall_prop.mp (by decide +kernel)
  exact fun c hc => hall c (program.base58 c hc)

/-- No word of the runtime is the address of a program. -/
theorem ProgramId.text_ne (program : ProgramId) (word : String) (hcolon : ':' ∈ word.toList) :
    program.text ≠ word := by
  rintro rfl
  exact absurd (program.base58 ':' hcolon) (by decide +kernel)

theorem depthText_of_digits {digits : List Char} (hne : digits ≠ [])
    (hdigits : digits.all (·.isDigit) = true) :
    depthText ("invoke [".toList ++ (digits ++ [']'])) = some digits := by
  rw [depthText, isPrefixOf?_append, Option.bind_some]
  simp [hne, hdigits]

theorem depthText_some {after digits : List Char} (h : depthText after = some digits) :
    after = "invoke [".toList ++ (digits ++ [']']) ∧ digits ≠ [] ∧
      digits.all (·.isDigit) = true := by
  obtain ⟨rest, hprefix, hrest⟩ := Option.bind_eq_some_iff.mp h
  rw [Option.ite_none_right_eq_some] at hrest
  obtain ⟨⟨hlast, hne, hdigits⟩, ⟨⟩⟩ := hrest
  refine ⟨?_, hne, hdigits⟩
  rw [List.dropLast_append_getLast? ']' hlast]
  exact (List.isPrefixOf?_eq_some_iff_append_eq.mp hprefix).symm

theorem depthText_none {after : List Char} (hbracket : '[' ∉ after) : depthText after = none := by
  cases h : depthText after with
  | none => rfl
  | some digits =>
      rw [(depthText_some h).1] at hbracket
      simp at hbracket

theorem eq_success_of_completes {after : List Char} (h : completes after = true)
    (hcolon : ':' ∉ after) : after = "success".toList := by
  rw [completes, decide_eq_true_eq] at h
  obtain h | h := h
  · exact h
  · obtain ⟨rest, hprefix, -⟩ := (Option.any_eq_true _ _).mp h
    rw [← List.isPrefixOf?_eq_some_iff_append_eq.mp hprefix] at hcolon
    simp at hcolon

section

variable {word : String} (after : String) (hne : word ≠ "")
  (hword : ∀ c ∈ word.toList, isTrimmed c = false)

include hne hword

theorem invocation_programLine : invocation (programLine word after).toList =
    (depthText after.toList).map (word.toList, ·) := by
  rw [invocation, programWord_programLine after hne hword]
  rfl

theorem completion_programLine : completion (programLine word after).toList =
    if completes after.toList then some word.toList else none := by
  rw [completion, programWord_programLine after hne hword]
  rfl

theorem decodeEscrowEventLog_programLine (hdata : word ≠ "data:") :
    decodeEscrowEventLog (programLine word after) = .ok none := by
  have hprefix : "Program data: ".toList.isPrefixOf? (programLine word after).toList = none := by
    cases h : "Program data: ".toList.isPrefixOf? (programLine word after).toList with
    | none => rfl
    | some text =>
        have hsame : (programLine word after).toList =
            (programLine "data:" (String.ofList text)).toList := by
          rw [← List.isPrefixOf?_eq_some_iff_append_eq.mp h]
          simp [programLine]
        have hwords := programWord_programLine after hne hword
        rw [hsame, programWord_programLine _ (by decide) dataWord_isTrimmed] at hwords
        obtain ⟨hname, -⟩ := Prod.mk.inj (Option.some.inj hwords)
        exact absurd (String.toList_injective hname).symm hdata
  rw [decodeEscrowEventLog, hprefix]

end

theorem decodeEscrowEventLog_data (slices : List (List UInt8)) :
    decodeEscrowEventLog (programLine "data:" (dataText slices)) =
      (decodePayload slices).map some := by
  have hline : (programLine "data:" (dataText slices)).toList =
      "Program data: ".toList ++ (dataText slices).toList := by
    simp [programLine]
  rw [decodeEscrowEventLog, hline, isPrefixOf?_append]
  rfl

/-! ## reading a line -/

section

variable (programId : String) (state : LogState)

/-- A line that is none of an invocation, a completion of what runs or data. -/
theorem readLog_quiet {word after : String} (hne : word ≠ "")
    (hword : ∀ c ∈ word.toList, isTrimmed c = false) (hdepth : depthText after.toList = none)
    (hcompletes : completes after.toList = true → state.stack.getLast? ≠ some (some word))
    (hdata : word ≠ "data:") :
    readLog programId state (programLine word after) = .ok state := by
  rw [readLog, invocation_programLine after hne hword, hdepth,
    completion_programLine after hne hword]
  by_cases hends : completes after.toList = true
  · simp [hends, hcompletes hends]
  · simp only [hends, Option.map_none, decodeEscrowEventLog_programLine after hne hword hdata]
    simp

theorem readLog_invoke (program : ProgramId) {depth : Nat} (hpos : 0 < depth)
    (hlt : depth < 2 ^ 32) :
    readLog programId state (programLine program.text ("invoke [" ++ toString depth ++ "]")) =
      .ok { state with
        stack := setLength state.stack (depth - 1) ++ [some program.text]
        topLevelInstruction := state.topLevelInstruction + if depth = 1 then 1 else 0 } := by
  have hafter : ("invoke [" ++ toString depth ++ "]").toList =
      "invoke [".toList ++ (Nat.toDigits 10 depth ++ [']']) := by
    simp
  have hdigits : (Nat.toDigits 10 depth).all (·.isDigit) = true := by
    simpa using fun c hc => mem_toDigits_isDigit hc
  have hvalue : Nat.ofDigitChars 10 (Nat.toDigits 10 depth) 0 = depth :=
    Nat.ofDigitChars_toDigits (by decide) (by decide)
  have hsafe : ¬ (depth > maxSafeInteger ∨ depth < 1) := by
    unfold maxSafeInteger
    omega
  rw [readLog, invocation_programLine _ program.nonempty program.isTrimmed_eq, hafter,
    depthText_of_digits Nat.toDigits_ne_nil hdigits]
  simp only [Option.map_some, hvalue, if_neg hsafe, if_neg (show ¬ depth ≥ 2 ^ 32 by omega),
    String.ofList_toList]

theorem readLog_success (program : ProgramId) (stack : List (Option String)) (top : Int)
    (events : List LocatedEvent) :
    readLog programId ⟨stack ++ [some program.text], top, events⟩
        (programLine program.text "success") = .ok ⟨stack, top, events⟩ := by
  rw [readLog, invocation_programLine _ program.nonempty program.isTrimmed_eq,
    completion_programLine _ program.nonempty program.isTrimmed_eq, depthText_none (by decide)]
  rw [if_pos (show completes "success".toList = true by decide)]
  simp

end

theorem readLog_log (programId : String) (stack : List (Option String)) (running : ProgramId)
    (top : Int) (events : List LocatedEvent) {text : String} (htext : readsInvocation text = false) :
    readLog programId ⟨stack ++ [some running.text], top, events⟩ (programLine "log:" text) =
      .ok ⟨stack ++ [some running.text], top, events⟩ := by
  refine readLog_quiet programId _ (by decide) logWord_isTrimmed ?_ (fun _ => ?_) (by decide)
  · simpa [readsInvocation] using htext
  · simpa using running.text_ne "log:" (by decide)

/-- The text of slices is made of the alphabet, of pads and of spaces. -/
theorem mem_dataText {slices : List (List UInt8)} {c : Char} (h : c ∈ (dataText slices).toList) :
    c ∈ ' ' :: '=' :: base64Alphabet := by
  rw [dataText, String.toList_ofList] at h
  induction slices with
  | nil => simp at h
  | cons slice slices ih =>
      cases slices with
      | nil =>
          rw [List.map_singleton, List.intercalate_singleton] at h
          exact List.mem_cons_of_mem _ (mem_base64 h)
      | cons next slices =>
          rw [List.map_cons, List.map_cons, List.intercalate_cons_cons, List.mem_append,
            List.mem_append, List.mem_singleton] at h
          obtain (h | rfl) | h := h
          · exact List.mem_cons_of_mem _ (mem_base64 h)
          · exact List.mem_cons_self
          · exact ih h

/-- One slice has four characters a group, and more have a space: none is a word of
seven letters. -/
theorem dataText_ne_success (slices : List (List UInt8)) :
    (dataText slices).toList ≠ "success".toList := by
  rw [dataText, String.toList_ofList]
  intro h
  match slices with
  | [] => simp at h
  | [slice] =>
      have hlength := congrArg List.length h
      rw [List.map_singleton, List.intercalate_singleton, length_base64] at hlength
      simp at hlength
      omega
  | slice :: next :: slices =>
      have hspace : ' ' ∈ "success".toList := by
        rw [← h, List.map_cons, List.map_cons, List.intercalate_cons_cons]
        simp
      exact absurd hspace (by decide)

theorem depthText_dataText (slices : List (List UInt8)) :
    depthText (dataText slices).toList = none :=
  depthText_none fun hmem => absurd (mem_dataText hmem) (by decide +kernel)

theorem completes_dataText (slices : List (List UInt8)) :
    completes (dataText slices).toList = false := by
  rw [← Bool.not_eq_true]
  intro h
  exact dataText_ne_success slices
    (eq_success_of_completes h fun hmem => absurd (mem_dataText hmem) (by decide +kernel))

theorem readLog_data (programId : String) (stack : List (Option String)) (running : ProgramId)
    (top : Int) (events : List LocatedEvent) {slices : List (List UInt8)}
    (hdecodes : running.text = programId → Decodable slices) :
    readLog programId ⟨stack ++ [some running.text], top, events⟩
        (programLine "data:" (dataText slices)) =
      .ok ⟨stack ++ [some running.text], top, events ++
        (if running.text = programId then (decodePayload slices).toOption.toList else []).map
          (⟨top, ·⟩)⟩ := by
  rw [readLog, invocation_programLine _ (by decide) dataWord_isTrimmed, depthText_dataText,
    completion_programLine _ (by decide) dataWord_isTrimmed, completes_dataText]
  by_cases hrunning : running.text = programId
  · obtain ⟨event, hevent⟩ := hdecodes hrunning
    simp [hrunning, decodeEscrowEventLog_data, hevent, Except.map, Except.toOption]
  · simp [hrunning]

/-- The lines about compute units. -/
theorem readLog_units (programId : String) (state : LogState) {word after : String}
    (hne : word ≠ "") (hword : ∀ c ∈ word.toList, isTrimmed c = false) (hdata : word ≠ "data:")
    (hbracket : '[' ∉ after.toList) (hcolon : ':' ∉ after.toList) (hspace : ' ' ∈ after.toList) :
    readLog programId state (programLine word after) = .ok state := by
  refine readLog_quiet programId state hne hword (depthText_none hbracket) (fun h => ?_) hdata
  rw [eq_success_of_completes h hcolon] at hspace
  exact absurd hspace (by decide)

theorem not_mem_toDigits {n : Nat} {c : Char} (hc : c.isDigit = false) :
    c ∉ Nat.toDigits 10 n := by
  intro hmem
  rw [mem_toDigits_isDigit hmem] at hc
  cases hc

theorem readLog_remaining (programId : String) (state : LogState) (units : Nat) :
    readLog programId state (programLine "consumption:" (toString units ++ " units remaining")) =
      .ok state :=
  readLog_units programId state (by decide) (List.all_iff_forall_prop.mp (by decide))
    (by decide)
    (by simp [not_mem_toDigits]) (by simp [not_mem_toDigits]) (by simp)

theorem readLog_consumed (programId : String) (state : LogState) (running : ProgramId)
    (units limit : Nat) :
    readLog programId state (programLine running.text
        ("consumed " ++ toString units ++ " of " ++ toString limit ++ " compute units")) =
      .ok state :=
  readLog_units programId state running.nonempty running.isTrimmed_eq
    (running.text_ne _ (by decide)) (by simp [not_mem_toDigits]) (by simp [not_mem_toDigits])
    (by simp)

end CalledIt.Indexer.Logs
