import CalledIt.Lib.JsonLine
import CalledIt.Lib.Program
import CalledIt.Lib.Store
import CalledIt.Sdk.Codec

/-!
# CalledIt.Signer.Journal

The signer's journal on disk (`oracle-signer/src/journal.ts`).

A decision is a file of its own, named after its key and linked into place whole;
beside the decisions runs an audit log with one JSON line for each.  `open` reads
both, brings each up to what the other has, and cuts off a last line that an append
left unfinished.  The code is a program of file calls, so that it can be stopped
after any of them.

SHA-256 with its hexadecimal digest is the parameter `sha256Hex`, and `isDate` is
`Number.isFinite(Date.parse(…))`.  Temporary files, which no other call sees,
permissions and the creation of empty directories are left out, and a log that is
not there reads as empty.
-/

namespace CalledIt.Signer

open Lib Lib.Json
open Sdk (JsError JsResult)

/-! ## files -/

inductive FileCall
  | readFile
  | readdir
  | readDecisionFile (name : Text)
  | link (name : Text) (content : List UInt8)
  | syncDirectory
  | truncate (length : ℕ)
  | append (bytes : List UInt8)
  deriving DecidableEq

/-- `link` tells whether it was the one to create the file. -/
def FileCall.Reply : FileCall → Type
  | readFile => List UInt8
  | readdir => List Text
  | readDecisionFile _ => Option (List UInt8)
  | link _ _ => Bool
  | syncDirectory | truncate _ | append _ => Unit

/-- The audit log and the decision directory. -/
structure Files where
  log : List UInt8
  decisions : Store Text (List UInt8)

/-- A file cut to a length, or filled up to it. -/
def resize (bytes : List UInt8) (length : ℕ) : List UInt8 :=
  bytes.take length ++ List.replicate (length - bytes.length) 0

/-- What the calls do.  A directory is listed in any order. -/
inductive Files.Exec : (c : FileCall) → Files → c.Reply → Files → Prop
  | readFile (files : Files) : Exec .readFile files files.log files
  | readdir (files : Files) {names : List Text} : names.Perm files.decisions.keys →
      Exec .readdir files names files
  | readDecisionFile (files : Files) (name : Text) :
      Exec (.readDecisionFile name) files (files.decisions.lookup name) files
  | created (files : Files) {name : Text} (content : List UInt8) :
      files.decisions.lookup name = none →
      Exec (.link name content) files true
        { files with decisions := files.decisions.insert name content }
  | exists (files : Files) {name : Text} (content : List UInt8) :
      files.decisions.lookup name ≠ none → Exec (.link name content) files false files
  | syncDirectory (files : Files) : Exec .syncDirectory files () files
  | truncate (files : Files) (length : ℕ) :
      Exec (.truncate length) files () { files with log := resize files.log length }
  | append (files : Files) (bytes : List UInt8) :
      Exec (.append bytes) files () { files with log := files.log ++ bytes }

/-- The calls as a function that lists a directory in the order of its files. -/
def Files.call : (c : FileCall) → Files → c.Reply × Files
  | .readFile, files => (files.log, files)
  | .readdir, files => (files.decisions.keys, files)
  | .readDecisionFile name, files => (files.decisions.lookup name, files)
  | .link name content, files =>
      if files.decisions.lookup name = none then
        (true, { files with decisions := files.decisions.insert name content })
      else (false, files)
  | .syncDirectory, files => ((), files)
  | .truncate length, files => ((), { files with log := resize files.log length })
  | .append bytes, files => ((), { files with log := files.log ++ bytes })

theorem Files.exec_call (c : FileCall) (files : Files) :
    Files.Exec c files (files.call c).1 (files.call c).2 := by
  cases c with
  | readFile => exact .readFile files
  | readdir => exact .readdir files (List.Perm.refl _)
  | readDecisionFile name => exact .readDecisionFile files name
  | link name content =>
      by_cases h : files.decisions.lookup name = none
      · rw [Files.call, if_pos h]
        exact .created files content h
      · rw [Files.call, if_neg h]
        exact .exists files content h
  | syncDirectory => exact .syncDirectory files
  | truncate length => exact .truncate files length
  | append bytes => exact .append files bytes

abbrev FileProgram (α : Type) := ExceptT JsError (Program FileCall FileCall.Reply) α

def perform (c : FileCall) : FileProgram c.Reply := liftM (Program.perform (R := FileCall.Reply) c)

/-! ## entries -/

/-- A field that is a string. -/
def stringField (name : Text) : Json → Option Text
  | .object ms =>
      match ms.lookup name with
      | some (.string s) => some s
      | _ => none
  | _ => none

def keyOf (entry : Json) : Text := (stringField (ascii "key") entry).getD []

def hashOf (entry : Json) : Text := (stringField (ascii "canonicalSha256Hex") entry).getD []

/-- `/^[0-9a-f]{64}$/` -/
def isSha256Hex (text : Text) : Bool :=
  text.length = 64 && text.all fun c => isDigit c || (0x61 ≤ c && c ≤ 0x66)

section Journal

variable (sha256Hex : List UInt8 → Text) (isDate : Text → Bool)

def validEntry (value : Json) : Bool :=
  match stringField (ascii "key") value, stringField (ascii "canonicalSha256Hex") value,
      stringField (ascii "recordedAt") value with
  | some key, some hash, some recordedAt => key ≠ [] && isSha256Hex hash && isDate recordedAt
  | _, _, _ => false

def decisionFileName (key : Text) : Text := sha256Hex (Utf8.encode key) ++ ascii ".json"

/-- The bytes of an entry with its line feed. -/
def lineOf (entry : Json) : List UInt8 := Utf8.encode (stringify entry ++ [lineFeed])

def journalEntry (key canonicalSha256Hex recordedAt : Text) : Json := .object
  [(ascii "key", .string key), (ascii "canonicalSha256Hex", .string canonicalSha256Hex),
    (ascii "recordedAt", .string recordedAt)]

/-- Decisions in memory, by key. -/
abbrev Entries := Store Text Text

def remember (entries : Entries) (entry : Json) : JsResult Entries :=
  match entries.lookup (keyOf entry) with
  | some prior =>
      if prior ≠ hashOf entry then
        .error (.error "oracle signature journal contains equivocation")
      else .ok (entries.insert (keyOf entry) (hashOf entry))
  | none => .ok (entries.insert (keyOf entry) (hashOf entry))

/-! ## decisions -/

def readDecision (name : Text) : FileProgram Json := do
  match ← perform (.readDecisionFile name) with
  | none => throw (.error "ENOENT")
  | some content =>
      match (parse (Utf8.decode content)).filter (validEntry isDate) with
      | none => throw (.error "oracle signature decision is corrupt")
      | some entry => return entry

def installDecision (entry : Json) : FileProgram Json := do
  if !validEntry isDate entry then
    throw (.error "oracle signature decision is invalid")
  let name := decisionFileName sha256Hex (keyOf entry)
  let created : Bool ← perform (.link name (lineOf entry))
  if created then
    perform .syncDirectory
  let decision ← readDecision isDate name
  if keyOf decision ≠ keyOf entry then
    throw (.error "oracle signature decision is corrupt")
  return decision

def appendEntry (entry : Json) : FileProgram Unit := perform (.append (lineOf entry))

/-! ## opening -/

/-- The entries of the log's lines, and where an unfinished last line starts. -/
def readLines (terminated : Bool) :
    List Text → ℕ → Store Text Json → JsResult (Store Text Json × Option ℕ)
  | [], _, entries => .ok (entries, none)
  | line :: rest, offset, entries =>
      if line = [] then readLines terminated rest (offset + 1) entries
      else
        match (parse line).filter (validEntry isDate) with
        | none =>
            if rest = [] ∧ !terminated then .ok (entries, some offset)
            else .error (.error "oracle signature journal is corrupt")
        | some entry =>
            if ((entries.lookup (keyOf entry)).all fun prior => hashOf prior = hashOf entry) then
              readLines terminated rest (offset + (Utf8.encode line).length + 1)
                (entries.insert (keyOf entry) entry)
            else .error (.error "oracle signature journal contains equivocation")

def readLog (body : Text) : JsResult (Store Text Json × Option ℕ) :=
  readLines isDate (body.getLast? = some lineFeed) (body.splitOn lineFeed) 0 ∅

def readDecisions : List Text → Entries → FileProgram Entries
  | [], entries => return entries
  | name :: rest, entries => do
      let decision ← readDecision isDate name
      if decisionFileName sha256Hex (keyOf decision) ≠ name then
        throw (.error "oracle signature decision is corrupt")
      let entries ← remember entries decision
      readDecisions rest entries

def installEntries : List Json → Entries → FileProgram Entries
  | [], entries => return entries
  | entry :: rest, entries => do
      let decision ← installDecision sha256Hex isDate entry
      if hashOf decision ≠ hashOf entry then
        throw (.error "oracle signature journal contains equivocation")
      let entries ← remember entries entry
      installEntries rest entries

/-- Decisions that the log does not have are added to it. -/
def appendMissing (journalEntries : Store Text Json) (now : Text) :
    List (Text × Text) → FileProgram Unit
  | [] => return
  | (key, hash) :: rest => do
      if (journalEntries.lookup key).map hashOf ≠ some hash then
        appendEntry (journalEntry key hash now)
      appendMissing journalEntries now rest

def openJournal (now : Text) : FileProgram Entries := do
  let body ← perform .readFile
  let (journalEntries, interruptedAuditOffset) ← readLog isDate (Utf8.decode body)
  let names ← perform .readdir
  let entries ← readDecisions sha256Hex isDate names ∅
  let entries ← installEntries sha256Hex isDate (journalEntries.entries.map (·.2)) entries
  match interruptedAuditOffset with
  | some offset => perform (.truncate offset)
  | none => pure ()
  appendMissing journalEntries now (entries.entries.map fun e => (e.1, e.2))
  return entries

/-! ## recording -/

def recordSerially (entries : Entries) (key canonicalSha256Hex now : Text) :
    FileProgram Entries := do
  match entries.lookup key with
  | some prior =>
      if prior ≠ canonicalSha256Hex then
        throw (.error "oracle signer refused equivocation")
      return entries
  | none =>
      let decision ← installDecision sha256Hex isDate (journalEntry key canonicalSha256Hex now)
      if hashOf decision ≠ canonicalSha256Hex then
        throw (.error "oracle signer refused equivocation")
      appendEntry decision
      remember entries decision

end Journal

/-! ## sample keys and clock -/

def sampleNow : Text := ascii "2027-01-15T08:00:00.000Z"

def sampleIsDate (text : Text) : Bool := text = sampleNow

def sampleKey : Text := ascii "terminal:market:8"

def sampleKey' : Text := ascii "terminal:market:9"

/-- The lowercase digits of a number. -/
def hexDigits (n : ℕ) : Text :=
  (Nat.digits 16 n).reverse.map fun d => UInt16.ofNat (if d < 10 then 0x30 + d else 0x57 + d)

def sampleSha256Hex (bytes : List UInt8) : Text :=
  if bytes = Utf8.encode sampleKey then
    hexDigits 0x255b02421853130f2f39cedbc671a3b1e485be18a494b2025d2a37f26eea5c05
  else if bytes = Utf8.encode sampleKey' then
    hexDigits 0x9819ab62d2d45b6ea7faf65b99c15857c85f0e56d3250024919595cbf41cfd88
  else []

end CalledIt.Signer
