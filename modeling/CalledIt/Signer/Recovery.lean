import CalledIt.Lib.Run
import CalledIt.Signer.Journal

/-!
# CalledIt.Signer.Recovery

What a crash leaves of the journal, and that `open` makes it good.

A crash in an append leaves a start of the line.  `open` takes a last line without
its line feed for unfinished when it is no entry, and cuts it off; the decision is in
its own file by then and is logged again.  A line that lacks the line feed only is an
entry, though, and stays: the next append goes on behind it, and what comes of the
two is no JSON.  `Recoverable` is what the crashes leave otherwise: `open` reads it,
makes it `Clean` and knows every decision (`meets_openJournal`), and `record` keeps it
(`meets_recordSerially`).
-/

namespace CalledIt.Signer

open Lib Lib.Json Lib.Program
open Sdk (JsError JsResult)

variable {sha256Hex : List UInt8 → Text} {isDate : Text → Bool}

/-! ## entries and their lines -/

/-- An entry that `validEntry` accepts. -/
structure Entry (isDate : Text → Bool) where
  key : Text
  hash : Text
  recordedAt : Text
  valid : validEntry isDate (journalEntry key hash recordedAt) = true

namespace Entry

def json (e : Entry isDate) : Json := journalEntry e.key e.hash e.recordedAt

def text (e : Entry isDate) : Text := stringify e.json

def bytes (e : Entry isDate) : List UInt8 := Utf8.encode e.text

/-- The bytes with the line feed. -/
def line (e : Entry isDate) : List UInt8 := e.bytes ++ [0x0A]

end Entry

theorem stringField_journalEntry (key hash recordedAt : Text) :
    stringField (ascii "key") (journalEntry key hash recordedAt) = some key ∧
    stringField (ascii "canonicalSha256Hex") (journalEntry key hash recordedAt) = some hash ∧
    stringField (ascii "recordedAt") (journalEntry key hash recordedAt) = some recordedAt :=
  ⟨rfl, rfl, rfl⟩

variable {key hash : Text}

theorem validEntry_journalEntry {recordedAt : Text} :
    validEntry isDate (journalEntry key hash recordedAt) = true ↔
      key ≠ [] ∧ isSha256Hex hash = true ∧ isDate recordedAt = true := by
  obtain ⟨hkey, hhash, hrecorded⟩ := stringField_journalEntry key hash recordedAt
  simp [validEntry, hkey, hhash, hrecorded, and_assoc]

theorem printable_journalEntry (key hash recordedAt : Text) :
    Printable (journalEntry key hash recordedAt) := by
  have hnames : [ascii "key", ascii "canonicalSha256Hex", ascii "recordedAt"].Nodup := by decide
  refine .object hnames fun m hm => ?_
  simp only [List.mem_cons, List.not_mem_nil, or_false] at hm
  rcases hm with rfl | rfl | rfl <;> exact .string _

/-- The text, brace by brace. -/
theorem stringify_journalEntry (key hash recordedAt : Text) :
    stringify (journalEntry key hash recordedAt) =
      openBrace :: (ascii "\"key\":" ++ (quoted key ++ (ascii ",\"canonicalSha256Hex\":" ++
        (quoted hash ++ (ascii ",\"recordedAt\":" ++ (quoted recordedAt ++ [closeBrace])))))) := by
  have hkey : quoted (ascii "key") ++ [colon] = ascii "\"key\":" := by decide +kernel
  have hhash : comma :: (quoted (ascii "canonicalSha256Hex") ++ [colon]) =
      ascii ",\"canonicalSha256Hex\":" := by decide +kernel
  have hrecorded : comma :: (quoted (ascii "recordedAt") ++ [colon]) =
      ascii ",\"recordedAt\":" := by decide +kernel
  rw [← hkey, ← hhash, ← hrecorded]
  simp only [journalEntry, stringify, stringifyMembers, commaJoin, memberText, List.append_assoc,
    List.cons_append, List.nil_append]

/-- Texts that are well formed and stay on their line. -/
def OneLine (t : Text) : Prop := Utf8.WellFormed t ∧ lineFeed ∉ t

theorem OneLine.append {t u : Text} (ht : OneLine t) (hu : OneLine u) : OneLine (t ++ u) :=
  ⟨Utf8.wellFormed_append ht.1 hu.1, fun h => (List.mem_append.mp h).elim ht.2 hu.2⟩

theorem oneLine_quoted (t : Text) : OneLine (quoted t) :=
  ⟨quoted_wellFormed t, lineFeed_not_mem_quoted t⟩

theorem oneLine_ascii {t : Text} (h : (t.all (· < 0x80)) = true)
    (hfeed : t.contains lineFeed = false) : OneLine t :=
  ⟨wellFormed_ascii h, fun hmem => by simp [hmem] at hfeed⟩

namespace Entry

variable (e : Entry isDate)

@[simp] theorem keyOf_json : keyOf e.json = e.key := rfl

@[simp] theorem hashOf_json : hashOf e.json = e.hash := rfl

theorem oneLine_text : OneLine e.text := by
  rw [text, json, stringify_journalEntry]
  have hopen : OneLine [openBrace] := oneLine_ascii (by decide) (by decide)
  have hclose : OneLine [closeBrace] := oneLine_ascii (by decide) (by decide)
  have hkey : OneLine (ascii "\"key\":") := oneLine_ascii (by decide +kernel) (by decide +kernel)
  have hhash : OneLine (ascii ",\"canonicalSha256Hex\":") :=
    oneLine_ascii (by decide +kernel) (by decide +kernel)
  have hrecorded : OneLine (ascii ",\"recordedAt\":") :=
    oneLine_ascii (by decide +kernel) (by decide +kernel)
  exact hopen.append (hkey.append ((oneLine_quoted _).append (hhash.append
    ((oneLine_quoted _).append (hrecorded.append ((oneLine_quoted _).append hclose))))))

theorem exists_text : ∃ t, e.text = openBrace :: t := ⟨_, stringify_journalEntry _ _ _⟩

theorem text_ne_nil : e.text ≠ [] := by
  obtain ⟨t, ht⟩ := e.exists_text
  simp [ht]

theorem lineOf_json : lineOf e.json = e.line := by
  exact Utf8.encode_append e.oneLine_text.1

theorem parse_text : parse e.text = some e.json := parse_stringify (printable_journalEntry _ _ _)

/-- A decision file ends with a line feed. -/
theorem parse_text_lineFeed : parse (e.text ++ [lineFeed]) = some e.json := by
  have hends : Json.Ends [lineFeed] := by
    simp [Json.Ends, lineFeed, isDigit, point, lowerE, upperE]
  have hlength : (stringify (journalEntry e.key e.hash e.recordedAt)).length ≤
      (e.text ++ [lineFeed]).length := by simp [text, json]
  have h : parseValue (2 * (e.text ++ [lineFeed]).length + 2) (e.text ++ [lineFeed]) =
      some (e.json, [lineFeed]) :=
    parseValue_stringify (printable_journalEntry _ _ _) _ [lineFeed] (by omega) hends
  have hspace : skipSpace [lineFeed] = [] := by decide
  simp only [parse, h, hspace, if_true]

theorem decode_line (bs : List UInt8) :
    Utf8.decode (e.line ++ bs) = e.text ++ lineFeed :: Utf8.decode bs := by
  rw [line, bytes, List.append_assoc, Utf8.decode_encode e.oneLine_text.1]
  rfl

theorem filter_parse (h : parse t = some e.json) :
    (parse t).filter (validEntry isDate) = some e.json := by
  have hvalid : validEntry isDate e.json = true := e.valid
  rw [h, Option.filter_some, if_pos hvalid]

/-- A line cut before its end is no JSON. -/
theorem parse_torn {k : ℕ} (hk : k < e.bytes.length) (hne : Utf8.decode (e.bytes.take k) ≠ []) :
    parse (Utf8.decode (e.bytes.take k)) = none ∧ lineFeed ∉ Utf8.decode (e.bytes.take k) := by
  obtain ⟨s, u, hsplit, hu, hdecode⟩ := Utf8.decode_take_encode e.oneLine_text.1 hk
  change Utf8.decode (e.bytes.take k) = s ∨ Utf8.decode (e.bytes.take k) = s ++ [_] at hdecode
  have hfeed : lineFeed ∉ s := by
    have hline := e.oneLine_text.2
    rw [hsplit] at hline
    exact fun h => hline (List.mem_append_left _ h)
  obtain ⟨t, ht⟩ := e.exists_text
  rw [ht] at hsplit
  cases s with
  | nil =>
      have honly := hdecode.resolve_left hne
      rw [honly]
      exact ⟨by decide +kernel, by decide⟩
  | cons c s =>
      obtain ⟨rfl, rfl⟩ : openBrace = c ∧ t = s ++ u := by simpa using hsplit
      rcases hdecode with hdecode | hdecode
      · rw [hdecode]
        exact ⟨parse_of_cut (printable_journalEntry _ _ _) ht hu, hfeed⟩
      · rw [hdecode]
        refine ⟨parse_of_cut_through (by decide) (by decide), ?_⟩
        simpa [lineFeed, Utf8.replacement] using hfeed

/-- A line tells its entry. -/
theorem json_eq_of_line {e e' : Entry isDate} (h : e.line = e'.line) : e.json = e'.json := by
  have htext := congrArg Utf8.decode h
  have hfirst := e.decode_line []
  have hsecond := e'.decode_line []
  rw [List.append_nil] at hfirst hsecond
  rw [hfirst, hsecond] at htext
  have hparse := e.parse_text_lineFeed
  rw [show e.text ++ [lineFeed] = e'.text ++ [lineFeed] from htext,
    e'.parse_text_lineFeed] at hparse
  exact (Option.some.inj hparse).symm

end Entry

/-! ## what is on disk -/

/-- The decision file of the key holds the hash. -/
def Decided (sha256Hex : List UInt8 → Text) (isDate : Text → Bool) (files : Files)
    (key hash : Text) : Prop :=
  ∃ e : Entry isDate, files.decisions.lookup (decisionFileName sha256Hex key) = some e.line ∧
    e.key = key ∧ e.hash = hash

/-- A start of an entry's line, short of its last byte. -/
def Torn (isDate : Text → Bool) (tail : List UInt8) : Prop :=
  tail = [] ∨ ∃ (e : Entry isDate) (k : ℕ), k < e.bytes.length ∧ tail = e.bytes.take k

/-- The log has these lines and this tail, all of them decided, and every decision
file is whole. -/
structure Intact (sha256Hex : List UInt8 → Text) (isDate : Text → Bool) (files : Files)
    (logged : List (Entry isDate)) (tail : List UInt8) : Prop where
  log : files.log = logged.flatMap Entry.line ++ tail
  torn : Torn isDate tail
  decided : ∀ e ∈ logged, Decided sha256Hex isDate files e.key e.hash
  decisions : ∀ name content, files.decisions.lookup name = some content →
    ∃ e : Entry isDate, content = e.line ∧ name = decisionFileName sha256Hex e.key

/-- What every crash has to leave. -/
def Recoverable (sha256Hex : List UInt8 → Text) (isDate : Text → Bool) (files : Files) : Prop :=
  ∃ logged tail, Intact sha256Hex isDate files logged tail

/-- What `open` and `record` leave when they return. -/
def Clean (sha256Hex : List UInt8 → Text) (isDate : Text → Bool) (files : Files) : Prop :=
  ∃ logged, Intact sha256Hex isDate files logged []

theorem decided_unique {files : Files} {hash' : Text} (h : Decided sha256Hex isDate files key hash)
    (h' : Decided sha256Hex isDate files key hash') :
    hash = hash' := by
  obtain ⟨e, hfile, -, rfl⟩ := h
  obtain ⟨e', hfile', -, rfl⟩ := h'
  rw [hfile, Option.some.injEq] at hfile'
  exact congrArg hashOf (Entry.json_eq_of_line hfile')

theorem Decided.of_decisions {files files' : Files} (h : Decided sha256Hex isDate files key hash)
    (hsame : files'.decisions = files.decisions) :
    Decided sha256Hex isDate files' key hash := by
  obtain ⟨e, hlookup, hkey, hhash⟩ := h
  exact ⟨e, by rw [hsame, hlookup], hkey, hhash⟩

variable {now : Text}

/-- The entry that logs a decision at another time. -/
theorem Decided.exists_entry {files : Files} (h : Decided sha256Hex isDate files key hash)
    (hnow : isDate now = true) :
    ∃ e : Entry isDate, e.json = journalEntry key hash now ∧ e.key = key ∧ e.hash = hash := by
  obtain ⟨d, -, rfl, rfl⟩ := h
  have hvalid := validEntry_journalEntry.mp d.valid
  exact ⟨⟨d.key, d.hash, now, validEntry_journalEntry.mpr ⟨hvalid.1, hvalid.2.1, hnow⟩⟩,
    rfl, rfl, rfl⟩

variable {name : Text}

section Log

variable {files : Files} {logged : List (Entry isDate)} {tail : List UInt8}

variable {e : Entry isDate}

theorem Intact.append_line (h : Intact sha256Hex isDate files logged [])
    (he : Decided sha256Hex isDate files e.key e.hash) :
    Intact sha256Hex isDate { files with log := files.log ++ e.line } (logged ++ [e]) [] where
  log := by simp [h.log]
  torn := .inl rfl
  decided := by
    intro e' he'
    rcases List.mem_append.mp he' with hold | hnew
    · exact h.decided e' hold
    · obtain rfl := List.mem_singleton.mp hnew
      exact he
  decisions := h.decisions

theorem Intact.append_torn (h : Intact sha256Hex isDate files logged []) {k : ℕ}
    (hk : k < e.bytes.length) :
    Intact sha256Hex isDate { files with log := files.log ++ e.line.take k } logged
      (e.bytes.take k) where
  log := by
    rw [h.log, List.append_nil, Entry.line, List.take_append_of_le_length hk.le]
  torn := .inr ⟨e, k, hk, rfl⟩
  decided := h.decided
  decisions := h.decisions

theorem Intact.truncate (h : Intact sha256Hex isDate files logged tail) :
    Intact sha256Hex isDate
      { files with log := resize files.log (logged.flatMap Entry.line).length } logged [] where
  log := by
    rw [h.log, resize, List.take_left, List.length_append, Nat.sub_eq_zero_of_le (by omega)]
    rfl
  torn := .inl rfl
  decided := h.decided
  decisions := h.decisions

/-- A new decision leaves the others. -/
theorem Decided.insert (h : Decided sha256Hex isDate files key hash)
    (hnone : files.decisions.lookup name = none) (content : List UInt8) :
    Decided sha256Hex isDate { files with decisions := files.decisions.insert name content }
      key hash := by
  obtain ⟨e, hlookup, hkey, hhash⟩ := h
  have hne : decisionFileName sha256Hex key ≠ name := by
    rintro rfl
    simp [hlookup] at hnone
  exact ⟨e, (AList.lookup_insert_ne hne).trans hlookup, hkey, hhash⟩

theorem Intact.insert (h : Intact sha256Hex isDate files logged tail)
    (hnone : files.decisions.lookup (decisionFileName sha256Hex e.key) = none) :
    Intact sha256Hex isDate { files with
      decisions := files.decisions.insert (decisionFileName sha256Hex e.key) e.line }
      logged tail where
  log := h.log
  torn := h.torn
  decided e' he' := (h.decided e' he').insert hnone _
  decisions name content hlookup := by
    obtain ⟨rfl, rfl⟩ | ⟨-, hold⟩ := Store.lookup_insert_iff.mp hlookup
    · exact ⟨e, rfl, rfl⟩
    · exact h.decisions name content hold

end Log

/-! ## reading the log -/

/-- Entries read from the log, each decided. -/
def Read (sha256Hex : List UInt8 → Text) (isDate : Text → Bool) (files : Files)
    (entries : Store Text Json) : Prop :=
  ∀ key value, entries.lookup key = some value → ∃ e : Entry isDate, value = e.json ∧
    e.key = key ∧ Decided sha256Hex isDate files e.key e.hash

theorem read_insert {files : Files} {entries : Store Text Json}
    (h : Read sha256Hex isDate files entries) {e : Entry isDate}
    (he : Decided sha256Hex isDate files e.key e.hash) :
    Read sha256Hex isDate files (entries.insert e.key e.json) := by
  intro key value hlookup
  obtain ⟨rfl, rfl⟩ | ⟨-, hold⟩ := Store.lookup_insert_iff.mp hlookup
  · exact ⟨e, rfl, rfl, he⟩
  · exact h key value hold

/-- Whole lines are read one after another. -/
theorem readLines_logged {files : Files} {logged : List (Entry isDate)}
    (hdecided : ∀ e ∈ logged, Decided sha256Hex isDate files e.key e.hash) (terminated : Bool)
    (rest : List Text) (offset : ℕ) {entries : Store Text Json}
    (hread : Read sha256Hex isDate files entries) :
    ∃ entries', Read sha256Hex isDate files entries' ∧
      readLines isDate terminated (logged.map Entry.text ++ rest) offset entries =
        readLines isDate terminated rest (offset + (logged.flatMap Entry.line).length)
          entries' := by
  induction logged generalizing offset entries with
  | nil => exact ⟨entries, hread, rfl⟩
  | cons e logged ih =>
      have he := hdecided e (by simp)
      have hagree : ((entries.lookup e.key).all fun prior => hashOf prior = e.hash) = true := by
        cases hprior : entries.lookup e.key with
        | none => rfl
        | some prior =>
            obtain ⟨e', rfl, hkey, hdecided'⟩ := hread e.key prior hprior
            rw [hkey] at hdecided'
            simp [decided_unique hdecided' he]
      obtain ⟨entries', hread', hrest⟩ := ih (fun e' he' => hdecided e' (by simp [he']))
        (offset + e.bytes.length + 1) (read_insert hread he)
      refine ⟨entries', hread', ?_⟩
      have hstep : readLines isDate terminated (e.text :: (logged.map Entry.text ++ rest)) offset
          entries = readLines isDate terminated (logged.map Entry.text ++ rest)
            (offset + e.bytes.length + 1) (entries.insert e.key e.json) := by
        rw [readLines, if_neg e.text_ne_nil, e.filter_parse e.parse_text]
        exact if_pos hagree
      have hlength : offset + ((e :: logged).flatMap Entry.line).length =
          offset + e.bytes.length + 1 + (logged.flatMap Entry.line).length := by
        simp only [List.flatMap_cons, List.length_append, Entry.line, List.length_singleton]
        omega
      rw [List.map_cons, List.cons_append, hstep, hrest, hlength]

theorem decode_logged (logged : List (Entry isDate)) (tail : List UInt8) :
    Utf8.decode (logged.flatMap Entry.line ++ tail) =
      logged.flatMap (fun e => e.text ++ [lineFeed]) ++ Utf8.decode tail := by
  induction logged with
  | nil => rfl
  | cons e logged ih =>
      rw [List.flatMap_cons, List.flatMap_cons, List.append_assoc, e.decode_line, ih]
      simp only [List.append_assoc, List.cons_append, List.nil_append]

theorem splitOn_logged (logged : List (Entry isDate)) {last : Text} (hlast : lineFeed ∉ last) :
    (logged.flatMap (fun e => e.text ++ [lineFeed]) ++ last).splitOn lineFeed =
      logged.map Entry.text ++ [last] := by
  induction logged with
  | nil => exact List.splitOn_eq_singleton hlast
  | cons e logged ih =>
      rw [List.flatMap_cons, List.append_assoc, List.append_assoc, List.singleton_append,
        List.splitOn_append_cons_self_of_not_mem e.oneLine_text.2, ih]
      rfl

/-- The log is read, and a torn tail is found where it starts. -/
theorem readLog_intact {files : Files} {logged : List (Entry isDate)} {tail : List UInt8}
    (h : Intact sha256Hex isDate files logged tail) :
    ∃ entries, Read sha256Hex isDate files entries ∧ readLog isDate (Utf8.decode files.log) =
      .ok (entries, if tail = [] then none else some (logged.flatMap Entry.line).length) := by
  have hlast : lineFeed ∉ Utf8.decode tail ∧ (tail ≠ [] → parse (Utf8.decode tail) = none) := by
    rcases h.torn with rfl | ⟨e, k, hk, rfl⟩
    · exact ⟨by simp [Utf8.decode, Utf8.decodeFrom], fun hne => absurd rfl hne⟩
    · by_cases hne : e.bytes.take k = []
      · rw [hne]
        exact ⟨by simp [Utf8.decode, Utf8.decodeFrom], fun hne => absurd rfl hne⟩
      · have htorn := e.parse_torn hk (fun hnil => hne (Utf8.decode_eq_nil_iff.mp hnil))
        exact ⟨htorn.2, fun _ => htorn.1⟩
  have hempty : Read sha256Hex isDate files ∅ := by
    intro key value hlookup
    simp at hlookup
  rw [h.log, readLog, decode_logged, splitOn_logged logged hlast.1]
  obtain ⟨entries, hread, hlines⟩ := readLines_logged h.decided
    ((logged.flatMap (fun e => e.text ++ [lineFeed]) ++ Utf8.decode tail).getLast? = some lineFeed)
    [Utf8.decode tail] 0 hempty
  refine ⟨entries, hread, ?_⟩
  rw [hlines]
  by_cases htail : tail = []
  · subst htail
    rfl
  · have hne : Utf8.decode tail ≠ [] := fun hnil => htail (Utf8.decode_eq_nil_iff.mp hnil)
    have hopen : ¬ (logged.flatMap (fun e => e.text ++ [lineFeed]) ++ Utf8.decode tail).getLast? =
        some lineFeed := by
      rw [List.getLast?_append_of_ne_nil _ hne]
      exact fun hfeed => hlast.1 (List.mem_of_getLast? hfeed)
    rw [decide_eq_false hopen, readLines, if_neg hne, hlast.2 htail, if_neg htail, Nat.zero_add]
    rfl

/-! ## crashes -/

/-- A crash in an append leaves a start of the bytes, of a length that `cut` allows. -/
inductive Files.Tear (cut : List UInt8 → ℕ → Prop) : FileCall → Files → Files → Prop
  | append (files : Files) {bytes : List UInt8} {k : ℕ} : k < bytes.length → cut bytes k →
      Tear cut (.append bytes) files { files with log := files.log ++ bytes.take k }

/-- Any length but that of everything except the last byte. -/
def ShortOfFeed (bytes : List UInt8) (k : ℕ) : Prop := k + 1 ≠ bytes.length

/-- No decision is lost. -/
def Extends (sha256Hex : List UInt8 → Text) (isDate : Text → Bool) (before after : Files) : Prop :=
  ∀ key hash, Decided sha256Hex isDate before key hash → Decided sha256Hex isDate after key hash

/-- The journal can be opened again and has lost no decision. -/
def Keeps (sha256Hex : List UInt8 → Text) (isDate : Text → Bool) (before after : Files) : Prop :=
  Recoverable sha256Hex isDate after ∧ Extends sha256Hex isDate before after

/-- Decisions in memory that are on disk. -/
def OnDisk (sha256Hex : List UInt8 → Text) (isDate : Text → Bool) (files : Files)
    (entries : Entries) : Prop :=
  ∀ key hash, entries.lookup key = some hash → Decided sha256Hex isDate files key hash

variable {entries : Entries} {d : Entry isDate} {before : Files}

section Calls

variable {K : Files → Prop} {files : Files}

variable {e : Entry isDate}

section

variable (h : OnDisk sha256Hex isDate files entries)

include h

theorem remember_decided
    (he : Decided sha256Hex isDate files e.key e.hash) :
    remember entries e.json = .ok (entries.insert e.key e.hash) := by
  cases hprior : entries.lookup e.key with
  | none => simp [remember, hprior]
  | some prior =>
      have hsame := decided_unique (h e.key prior hprior) he
      simp [remember, hprior, hsame]

theorem onDisk_insert
    (hdecided : Decided sha256Hex isDate files key hash) :
    OnDisk sha256Hex isDate files (entries.insert key hash) := by
  intro key' hash' hlookup
  obtain ⟨rfl, rfl⟩ | ⟨-, hold⟩ := Store.lookup_insert_iff.mp hlookup
  · exact hdecided
  · exact h key' hash' hold

/-- Entries with a decision added know what they knew. -/
theorem lookup_insert_decided
    (hdecided : Decided sha256Hex isDate files key hash) {key' hash' : Text}
    (hlookup : entries.lookup key' = some hash') :
    (entries.insert key hash).lookup key' = some hash' := by
  rw [Store.lookup_insert_iff]
  by_cases hkey : key' = key
  · subst hkey
    exact .inl ⟨rfl, decided_unique (h key' hash' hlookup) hdecided⟩
  · exact .inr ⟨hkey, hlookup⟩

end

variable {cut : List UInt8 → ℕ → Prop}

theorem meets_readDecision (hK : K files) (h : files.decisions.lookup name = some e.line) :
    Meets Files.Exec (Files.Tear cut) K (Returns fun d t => d = e.json ∧ t = files)
      (readDecision isDate name) files := by
  refine meets_bind_ok (P := fun r t => r = some e.line ∧ t = files) ?_ ?_
  · refine meets_perform hK (fun t htear => by cases htear) fun r t hexec => ?_
    cases hexec
    exact ⟨hK, _, rfl, h, rfl⟩
  · rintro _ _ ⟨rfl, rfl⟩
    have hdecode := e.decode_line []
    rw [List.append_nil] at hdecode
    simp only [hdecode]
    rw [show Utf8.decode [] = [] from rfl, e.filter_parse e.parse_text_lineFeed]
    exact meets_pure hK ⟨e.json, rfl, rfl, rfl⟩

theorem installDecision_json (e : Entry isDate) :
    installDecision sha256Hex isDate e.json = (do
      let created : Bool ← perform (.link (decisionFileName sha256Hex e.key) e.line)
      if created then
        perform .syncDirectory
      let decision ← readDecision isDate (decisionFileName sha256Hex e.key)
      if keyOf decision ≠ e.key then
        throw (.error "oracle signature decision is corrupt")
      return decision) := by
  have hvalid : validEntry isDate e.json = true := e.valid
  rw [installDecision, hvalid, ← e.lineOf_json]
  rfl

theorem meets_link {old : List UInt8} (hK : K files) (h : files.decisions.lookup name = some old)
    (content : List UInt8) :
    Meets Files.Exec (Files.Tear cut) K (Returns fun created t => created = false ∧ t = files)
      (perform (.link name content)) files := by
  refine meets_perform hK (fun t htear => by cases htear) fun r t hexec => ?_
  cases hexec with
  | created _ _ hnone => simp [h] at hnone
  | «exists» => exact ⟨hK, _, rfl, rfl, rfl⟩

/-- A link that does not go through finds the decision that is there. -/
theorem meets_installDecision (hK : K files)
    (hlookup : files.decisions.lookup (decisionFileName sha256Hex e.key) = some d.line)
    (hkey : d.key = e.key) :
    Meets Files.Exec (Files.Tear cut) K (Returns fun j t => j = d.json ∧ t = files)
      (installDecision sha256Hex isDate e.json) files := by
  rw [installDecision_json]
  refine meets_bind_ok (meets_link hK hlookup _) ?_
  rintro _ _ ⟨rfl, rfl⟩
  refine meets_bind_ok (meets_readDecision hK hlookup) ?_
  rintro _ _ ⟨rfl, rfl⟩
  rw [Entry.keyOf_json, if_neg (by simp [hkey])]
  exact meets_pure hK ⟨d.json, rfl, rfl, rfl⟩

/-- A file that holds another key is refused. -/
theorem meets_installDecision_other (hK : K files)
    (hlookup : files.decisions.lookup (decisionFileName sha256Hex e.key) = some d.line)
    (hkey : d.key ≠ e.key) :
    Meets Files.Exec (Files.Tear cut) K (fun r t => (∃ err, r = .error err) ∧ t = files)
      (installDecision sha256Hex isDate e.json) files := by
  rw [installDecision_json]
  refine meets_bind_ok (meets_link hK hlookup _) ?_
  rintro _ _ ⟨rfl, rfl⟩
  refine meets_bind_ok (meets_readDecision hK hlookup) ?_
  rintro _ _ ⟨rfl, rfl⟩
  rw [Entry.keyOf_json, if_pos hkey]
  exact meets_throw hK ⟨⟨_, rfl⟩, rfl⟩

/-- The first link decides. -/
theorem meets_installDecision_new
    (hnone : files.decisions.lookup (decisionFileName sha256Hex e.key) = none) (hK : K files)
    (hK' : K { files with
      decisions := files.decisions.insert (decisionFileName sha256Hex e.key) e.line }) :
    Meets Files.Exec (Files.Tear cut) K
      (Returns fun j t => j = e.json ∧ t = { files with
        decisions := files.decisions.insert (decisionFileName sha256Hex e.key) e.line })
      (installDecision sha256Hex isDate e.json) files := by
  rw [installDecision_json]
  refine meets_bind_ok (P := fun r t => r = true ∧ t = { files with
    decisions := files.decisions.insert (decisionFileName sha256Hex e.key) e.line }) ?_ ?_
  · refine meets_perform hK (fun t htear => by cases htear) fun r t hexec => ?_
    cases hexec with
    | created => exact ⟨hK', _, rfl, rfl, rfl⟩
    | «exists» _ _ hsome => exact absurd hnone hsome
  · rintro _ decided ⟨rfl, rfl⟩
    refine meets_bind_ok (P := fun _ t => t = { files with
      decisions := files.decisions.insert (decisionFileName sha256Hex e.key) e.line }) ?_ ?_
    · refine meets_perform hK' (fun t htear => by cases htear) fun r t hexec => ?_
      cases hexec
      exact ⟨hK', _, rfl, rfl⟩
    · rintro _ _ rfl
      refine meets_bind_ok (meets_readDecision hK' (AList.lookup_insert _)) ?_
      rintro _ _ ⟨rfl, rfl⟩
      rw [Entry.keyOf_json, if_neg (by simp)]
      exact meets_pure hK' ⟨e.json, rfl, rfl, rfl⟩

theorem meets_readDecisions {names : List Text} (hK : K files)
    (hnames : ∀ name ∈ names, ∃ e : Entry isDate, files.decisions.lookup name = some e.line ∧
      name = decisionFileName sha256Hex e.key) (hdisk : OnDisk sha256Hex isDate files entries) :
    Meets Files.Exec (Files.Tear cut) K (Returns fun m t => t = files ∧
        OnDisk sha256Hex isDate files m ∧
        (∀ key hash, entries.lookup key = some hash → m.lookup key = some hash) ∧
        ∀ e : Entry isDate, decisionFileName sha256Hex e.key ∈ names →
          Decided sha256Hex isDate files e.key e.hash → m.lookup e.key = some e.hash)
      (readDecisions sha256Hex isDate names entries) files := by
  induction names generalizing entries with
  | nil => exact meets_pure hK ⟨entries, rfl, rfl, hdisk, fun _ _ h => h, by simp⟩
  | cons name names ih =>
      obtain ⟨d, hlookup, rfl⟩ := hnames name (by simp)
      have hdecided : Decided sha256Hex isDate files d.key d.hash := ⟨d, hlookup, rfl, rfl⟩
      refine meets_bind_ok (meets_readDecision hK hlookup) ?_
      rintro _ _ ⟨rfl, rfl⟩
      rw [Entry.keyOf_json, if_neg (by simp), remember_decided hdisk hdecided]
      refine (ih (fun name hname => hnames name (by simp [hname]))
        (onDisk_insert hdisk hdecided)).mono ?_
      rintro _ _ ⟨m, rfl, rfl, hm, hmore, hread⟩
      refine ⟨m, rfl, rfl, hm, fun key hash h => ?_, fun e he hde => ?_⟩
      · exact hmore key hash (lookup_insert_decided hdisk hdecided h)
      · rcases List.mem_cons.mp he with hname | hname
        · -- one file holds one entry
          have hsame := hde
          obtain ⟨e', hlookup', hkey', -⟩ := hde
          rw [hname, hlookup, Option.some.injEq] at hlookup'
          have hkey : d.key = e.key := (congrArg keyOf (Entry.json_eq_of_line hlookup')).trans hkey'
          rw [← hkey] at hsame ⊢
          rw [← decided_unique hdecided hsame]
          exact hmore _ _ (AList.lookup_insert _)
        · exact hread e hname hde

theorem meets_installEntries {listed : List Json} (hK : K files)
    (hlisted : ∀ j ∈ listed, ∃ e : Entry isDate, j = e.json ∧
      Decided sha256Hex isDate files e.key e.hash) (hdisk : OnDisk sha256Hex isDate files entries) :
    Meets Files.Exec (Files.Tear cut) K (Returns fun m t => t = files ∧
        OnDisk sha256Hex isDate files m ∧
        ∀ key hash, entries.lookup key = some hash → m.lookup key = some hash)
      (installEntries sha256Hex isDate listed entries) files := by
  induction listed generalizing entries with
  | nil => exact meets_pure hK ⟨entries, rfl, rfl, hdisk, fun _ _ h => h⟩
  | cons j listed ih =>
      obtain ⟨e, rfl, hdecided⟩ := hlisted j (by simp)
      obtain ⟨d, hlookup, hkey, hhash⟩ := hdecided
      have hdecided : Decided sha256Hex isDate files e.key e.hash := ⟨d, hlookup, hkey, hhash⟩
      refine meets_bind_ok (meets_installDecision hK hlookup hkey) ?_
      rintro _ _ ⟨rfl, rfl⟩
      rw [Entry.hashOf_json, Entry.hashOf_json, if_neg (by simp [hhash]),
        remember_decided hdisk hdecided]
      refine (ih (fun j hj => hlisted j (by simp [hj])) (onDisk_insert hdisk hdecided)).mono ?_
      rintro _ _ ⟨m, rfl, rfl, hm, hmore⟩
      exact ⟨m, rfl, rfl, hm, fun key hash h =>
        hmore key hash (lookup_insert_decided hdisk hdecided h)⟩

theorem meets_appendEntry {logged : List (Entry isDate)}
    (h : Intact sha256Hex isDate files logged []) (he : Decided sha256Hex isDate files e.key e.hash)
    (hkeeps : Extends sha256Hex isDate before files) :
    Meets Files.Exec (Files.Tear ShortOfFeed) (Keeps sha256Hex isDate before)
      (Returns fun _ t => t.decisions = files.decisions ∧ Clean sha256Hex isDate t)
      (appendEntry e.json) files := by
  rw [appendEntry, e.lineOf_json]
  refine meets_perform ⟨⟨logged, [], h⟩, hkeeps⟩ (fun t htear => ?_) fun r t hexec => ?_
  · cases htear with
    | append _ hk hcut =>
        have hlength : e.line.length = e.bytes.length + 1 := by simp [Entry.line]
        rw [ShortOfFeed, hlength] at hcut
        exact ⟨⟨logged, _, h.append_torn (by omega)⟩, hkeeps⟩
  · cases hexec
    exact ⟨⟨⟨_, [], h.append_line he⟩, hkeeps⟩, (), rfl, rfl, _, h.append_line he⟩

theorem meets_appendMissing (journalEntries : Store Text Json) (hnow : isDate now = true)
    {listed : List (Text × Text)} (hclean : Clean sha256Hex isDate files)
    (hlisted : ∀ kh ∈ listed, Decided sha256Hex isDate files kh.1 kh.2)
    (hkeeps : Extends sha256Hex isDate before files) :
    Meets Files.Exec (Files.Tear ShortOfFeed) (Keeps sha256Hex isDate before)
      (Returns fun _ t => t.decisions = files.decisions ∧ Clean sha256Hex isDate t)
      (appendMissing journalEntries now listed) files := by
  induction listed generalizing files with
  | nil =>
      obtain ⟨logged, h⟩ := hclean
      exact meets_pure ⟨⟨logged, [], h⟩, hkeeps⟩ ⟨(), rfl, rfl, logged, h⟩
  | cons kh listed ih =>
      obtain ⟨key, hash⟩ := kh
      have hdecided := hlisted (key, hash) (by simp)
      have hrest : ∀ kh ∈ listed, Decided sha256Hex isDate files kh.1 kh.2 :=
        fun kh hkh => hlisted kh (by simp [hkh])
      rw [appendMissing]
      split_ifs with hmissing
      · obtain ⟨e, hjson, rfl, rfl⟩ := hdecided.exists_entry hnow
        rw [← hjson]
        obtain ⟨logged, h⟩ := hclean
        refine meets_bind_ok (meets_appendEntry h hdecided hkeeps) ?_
        rintro _ t ⟨hsame, hclean⟩
        refine (ih hclean (fun kh hkh => (hrest kh hkh).of_decisions hsame)
          (fun key hash hd => (hkeeps key hash hd).of_decisions hsame)).mono ?_
        rintro _ u ⟨_, rfl, hsame', hclean'⟩
        exact ⟨(), rfl, hsame'.trans hsame, hclean'⟩
      · exact ih hclean hrest hkeeps

theorem meets_readFile (hK : K files) :
    Meets Files.Exec (Files.Tear cut) K (Returns fun body t => body = files.log ∧ t = files)
      (perform .readFile) files := by
  refine meets_perform hK (fun t htear => by cases htear) fun r t hexec => ?_
  cases hexec
  exact ⟨hK, _, rfl, rfl, rfl⟩

theorem meets_readdir (hK : K files) :
    Meets Files.Exec (Files.Tear cut) K
      (Returns fun names t => List.Perm names files.decisions.keys ∧ t = files)
      (perform .readdir) files := by
  refine meets_perform hK (fun t htear => by cases htear) fun r t hexec => ?_
  cases hexec with
  | readdir _ hperm => exact ⟨hK, _, rfl, hperm, rfl⟩

/-- The torn tail is cut off before what follows. -/
theorem meets_truncate {logged : List (Entry isDate)} {tail : List UInt8} {α : Type}
    {Q : JsResult α → Files → Prop} {next : Unit → FileProgram α}
    (h : Intact sha256Hex isDate files logged tail) (hkeeps : Extends sha256Hex isDate before files)
    (hnext : ∀ t, t.decisions = files.decisions → Clean sha256Hex isDate t →
      Meets Files.Exec (Files.Tear cut) (Keeps sha256Hex isDate before) Q (next ()) t) :
    Meets Files.Exec (Files.Tear cut) (Keeps sha256Hex isDate before) Q
      (match if tail = [] then none else some (logged.flatMap Entry.line).length with
        | some offset => perform (.truncate offset) >>= next
        | none => next () : FileProgram α) files := by
  have hK : Keeps sha256Hex isDate before files := ⟨⟨logged, tail, h⟩, hkeeps⟩
  by_cases htail : tail = []
  · rw [if_pos htail]
    subst htail
    exact hnext files rfl ⟨logged, h⟩
  · rw [if_neg htail]
    refine meets_bind_ok (P := fun _ t => t.decisions = files.decisions ∧
      Clean sha256Hex isDate t) ?_ fun _ t ht => hnext t ht.1 ht.2
    refine meets_perform hK (fun t htear => by cases htear) fun r t hexec => ?_
    cases hexec
    exact ⟨⟨⟨logged, [], h.truncate⟩, hkeeps⟩, (), rfl, rfl, logged, h.truncate⟩

/-- `open` makes good what a crash left, and knows every decision. -/
theorem meets_openJournal (hnow : isDate now = true) (h : Recoverable sha256Hex isDate files) :
    Meets Files.Exec (Files.Tear ShortOfFeed) (Keeps sha256Hex isDate files)
      (Returns fun m t => t.decisions = files.decisions ∧ Clean sha256Hex isDate t ∧
        ∀ key hash, m.lookup key = some hash ↔ Decided sha256Hex isDate files key hash)
      (openJournal sha256Hex isDate now) files := by
  have hK : Keeps sha256Hex isDate files files := ⟨h, fun _ _ hd => hd⟩
  obtain ⟨logged, tail, h⟩ := h
  obtain ⟨journalEntries, hread, hlog⟩ := readLog_intact h
  refine meets_bind_ok (meets_readFile hK) ?_
  rintro _ files ⟨rfl, rfl⟩
  rw [hlog]
  refine meets_bind_ok (P := fun read t => read = (journalEntries, _) ∧ t = files)
    (meets_pure hK ⟨_, rfl, rfl, rfl⟩) ?_
  rintro _ files ⟨rfl, rfl⟩
  refine meets_bind_ok (meets_readdir hK) ?_
  rintro (names : List Text) files ⟨hperm, rfl⟩
  have hnames : ∀ name, name ∈ names ↔ ∃ content, files.decisions.lookup name = some content := by
    intro name
    rw [hperm.mem_iff, ← AList.mem_keys, ← AList.lookup_isSome, Option.isSome_iff_exists]
  have hwhole : ∀ name ∈ names, ∃ e : Entry isDate, files.decisions.lookup name = some e.line ∧
      name = decisionFileName sha256Hex e.key := by
    intro name hname
    obtain ⟨content, hcontent⟩ := (hnames name).mp hname
    obtain ⟨e, rfl, hkey⟩ := h.decisions name content hcontent
    exact ⟨e, hcontent, hkey⟩
  have hempty : OnDisk sha256Hex isDate files ∅ := by
    intro key hash hlookup
    simp at hlookup
  refine meets_bind_ok (meets_readDecisions hK hwhole hempty) ?_
  rintro decided files ⟨rfl, hdisk, -, hknown⟩
  have hlisted : ∀ j ∈ journalEntries.entries.map (·.2), ∃ e : Entry isDate, j = e.json ∧
      Decided sha256Hex isDate files e.key e.hash := by
    intro j hj
    obtain ⟨entry, hentry, rfl⟩ := List.mem_map.mp hj
    obtain ⟨e, hjson, -, hdecided⟩ := hread _ _ (Store.lookup_of_mem hentry)
    exact ⟨e, hjson, hdecided⟩
  refine meets_bind_ok (meets_installEntries hK hlisted hdisk) ?_
  rintro entries files ⟨rfl, hdisk, hmore⟩
  have hentries : ∀ key hash, entries.lookup key = some hash ↔
      Decided sha256Hex isDate files key hash := by
    refine fun key hash => ⟨hdisk key hash, fun hdecided => hmore key hash ?_⟩
    obtain ⟨e, hlookup, rfl, rfl⟩ := hdecided
    exact hknown e ((hnames _).mpr ⟨_, hlookup⟩) ⟨e, hlookup, rfl, rfl⟩
  refine meets_truncate h (fun _ _ hd => hd) fun cleaned hcleaned hclean => ?_
  have hmissing : ∀ kh ∈ entries.entries.map (fun e => (e.1, e.2)),
      Decided sha256Hex isDate cleaned kh.1 kh.2 := by
    intro kh hkh
    obtain ⟨entry, hentry, rfl⟩ := List.mem_map.mp hkh
    exact (hdisk _ _ (Store.lookup_of_mem hentry)).of_decisions hcleaned
  refine meets_bind_ok (meets_appendMissing journalEntries hnow hclean hmissing
    fun _ _ hd => hd.of_decisions hcleaned) ?_
  rintro _ appended ⟨happended, hclean⟩
  have hsame : appended.decisions = files.decisions := happended.trans hcleaned
  obtain ⟨logged', h'⟩ := hclean
  exact meets_pure ⟨⟨logged', [], h'⟩, fun _ _ hd => hd.of_decisions hsame⟩
    ⟨entries, rfl, hsame, ⟨logged', h'⟩, hentries⟩

/-- What `record` leaves, and what it has decided when it returns. -/
def Recorded (sha256Hex : List UInt8 → Text) (isDate : Text → Bool) (before : Files)
    (key hash : Text) (r : JsResult Entries) (after : Files) : Prop :=
  Clean sha256Hex isDate after ∧
  Extends sha256Hex isDate before after ∧
  ∀ entries, r = .ok entries → OnDisk sha256Hex isDate after entries ∧
    Decided sha256Hex isDate after key hash

/-- The decision found or made is logged and remembered. -/
theorem meets_logged (hclean : Clean sha256Hex isDate files)
    (hkeeps : Extends sha256Hex isDate before files)
    (hdisk : OnDisk sha256Hex isDate before entries)
    (hdecided : Decided sha256Hex isDate files d.key d.hash) :
    Meets Files.Exec (Files.Tear ShortOfFeed) (Keeps sha256Hex isDate before)
      (Recorded sha256Hex isDate before d.key d.hash)
      (do
        appendEntry d.json
        remember entries d.json : FileProgram Entries) files := by
  obtain ⟨logged, h⟩ := hclean
  refine meets_bind_ok (meets_appendEntry h hdecided hkeeps) ?_
  rintro _ after ⟨hsame, hclean⟩
  have hkept : Extends sha256Hex isDate before after :=
    fun key hash hd => (hkeeps key hash hd).of_decisions hsame
  have hdisk' : OnDisk sha256Hex isDate after entries :=
    fun key hash hlookup => hkept key hash (hdisk key hash hlookup)
  have hdecided' := hdecided.of_decisions hsame
  rw [remember_decided hdisk' hdecided']
  obtain ⟨logged', h'⟩ := hclean
  refine meets_pure ⟨⟨logged', [], h'⟩, hkept⟩ ⟨⟨logged', h'⟩, hkept, ?_⟩
  rintro _ ⟨⟩
  exact ⟨onDisk_insert hdisk' hdecided', hdecided'⟩

theorem meets_recordSerially (hclean : Clean sha256Hex isDate files)
    (hdisk : OnDisk sha256Hex isDate files entries) :
    Meets Files.Exec (Files.Tear ShortOfFeed) (Keeps sha256Hex isDate files)
      (Recorded sha256Hex isDate files key hash)
      (recordSerially sha256Hex isDate entries key hash now) files := by
  obtain ⟨logged, h⟩ := hclean
  have hK : Keeps sha256Hex isDate files files := ⟨⟨logged, [], h⟩, fun _ _ hd => hd⟩
  have hfailed : ∀ err, Recorded sha256Hex isDate files key hash (.error err) files :=
    fun err => ⟨⟨logged, h⟩, fun _ _ hd => hd, fun _ hr => by cases hr⟩
  rw [recordSerially]
  cases hprior : entries.lookup key with
  | some prior =>
      by_cases hsame : prior = hash
      · subst hsame
        simp only [ne_eq, not_true_eq_false, if_false]
        refine meets_pure hK ⟨⟨logged, h⟩, fun _ _ hd => hd, ?_⟩
        rintro _ ⟨⟩
        exact ⟨hdisk, hdisk key prior hprior⟩
      · simp only [ne_eq, hsame, not_false_eq_true, if_true]
        exact meets_throw hK (hfailed _)
  | none =>
      by_cases hvalid : validEntry isDate (journalEntry key hash now) = true
      · obtain ⟨e, hjson, rfl, rfl⟩ : ∃ e : Entry isDate, journalEntry key hash now = e.json ∧
            key = e.key ∧ hash = e.hash := ⟨⟨key, hash, now, hvalid⟩, rfl, rfl, rfl⟩
        rw [hjson]
        cases hlookup : files.decisions.lookup (decisionFileName sha256Hex e.key) with
        | none =>
            have hkeeps := fun key hash (hd : Decided sha256Hex isDate files key hash) =>
              hd.insert hlookup e.line
            have h' := h.insert hlookup
            refine meets_bind_ok (meets_installDecision_new hlookup hK
              ⟨⟨logged, [], h'⟩, hkeeps⟩) ?_
            rintro _ _ ⟨rfl, rfl⟩
            rw [Entry.hashOf_json, if_neg (by simp)]
            exact meets_logged ⟨logged, h'⟩ hkeeps hdisk ⟨e, AList.lookup_insert _, rfl, rfl⟩
        | some content =>
            obtain ⟨d, rfl, -⟩ := h.decisions _ _ hlookup
            by_cases hkey : d.key = e.key
            · refine meets_bind_ok (meets_installDecision hK hlookup hkey) ?_
              rintro _ files ⟨rfl, rfl⟩
              rw [Entry.hashOf_json]
              by_cases hhash : d.hash = e.hash
              · rw [if_neg (by simp [hhash]), ← hkey, ← hhash]
                rw [← hkey] at hlookup
                exact meets_logged ⟨logged, h⟩ (fun _ _ hd => hd) hdisk ⟨d, hlookup, rfl, rfl⟩
              · rw [if_pos hhash]
                exact meets_throw hK (hfailed _)
            · refine meets_bind (P := fun _ _ => False) ?_ fun _ _ hfalse => hfalse.elim
              refine (meets_installDecision_other hK hlookup hkey).mono ?_
              rintro _ files ⟨⟨err, rfl⟩, rfl⟩
              exact .inr ⟨err, rfl, hK, hfailed err⟩
      · -- nothing is linked for an entry that is not valid
        rw [installDecision, if_pos (by simpa using hvalid)]
        exact meets_throw hK (hfailed _)

end Calls

end CalledIt.Signer
