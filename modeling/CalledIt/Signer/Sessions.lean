import CalledIt.Signer.Recovery

/-!
# CalledIt.Signer.Sessions

One signer through restarts and crashes.

A session opens the journal, records decisions and may stop between any two file
calls or in the middle of an append; the files stay.  As long as no crash leaves a
whole line without its line feed, every `open` returns and knows every decision whose
`record` did (`journal_recovers`).
-/

namespace CalledIt.Signer

open Lib Lib.Json Lib.Program
open Sdk (JsError JsResult)

/-- The files, the decisions in memory while the signer runs, and what `record`
returned for so far. -/
structure Session where
  files : Files
  entries : Option Entries
  returned : List (Text × Text)

def Session.empty : Session := ⟨⟨[], ∅⟩, none, []⟩

inductive Session.Event
  | opened
  | recorded (key canonicalSha256Hex : Text)
  | failed (error : JsError)
  | crashed
  | restarted

section Sessions

variable (sha256Hex : List UInt8 → Text) (isDate : Text → Bool) (cut : List UInt8 → ℕ → Prop)

/-- `now` is the clock's text, which is a date. -/
inductive Session.Step : Session → Session.Event → Session → Prop
  | opened {s : Session} {now : Text} {entries : Entries} {files : Files} :
      s.entries = none → isDate now = true →
      Executes Files.Exec (openJournal sha256Hex isDate now) s.files (.ok entries) files →
      Step s .opened { s with files := files, entries := some entries }
  | openFailed {s : Session} {now : Text} {error : JsError} {files : Files} :
      s.entries = none → isDate now = true →
      Executes Files.Exec (openJournal sha256Hex isDate now) s.files (.error error) files →
      Step s (.failed error) { s with files := files }
  | openCrashed {s : Session} {now : Text} {files : Files} :
      s.entries = none → isDate now = true →
      Crashes Files.Exec (Files.Tear cut) (openJournal sha256Hex isDate now) s.files files →
      Step s .crashed { s with files := files }
  | recorded {s : Session} {now key hash : Text} {entries entries' : Entries} {files : Files} :
      s.entries = some entries → isDate now = true →
      Executes Files.Exec (recordSerially sha256Hex isDate entries key hash now) s.files
        (.ok entries') files →
      Step s (.recorded key hash) ⟨files, some entries', s.returned ++ [(key, hash)]⟩
  | recordFailed {s : Session} {now key hash : Text} {entries : Entries} {error : JsError}
      {files : Files} :
      s.entries = some entries → isDate now = true →
      Executes Files.Exec (recordSerially sha256Hex isDate entries key hash now) s.files
        (.error error) files →
      Step s (.failed error) { s with files := files }
  | recordCrashed {s : Session} {now key hash : Text} {entries : Entries} {files : Files} :
      s.entries = some entries → isDate now = true →
      Crashes Files.Exec (Files.Tear cut) (recordSerially sha256Hex isDate entries key hash now)
        s.files files →
      Step s .crashed { s with files := files, entries := none }
  | restarted (s : Session) : Step s .restarted { s with entries := none }

end Sessions

variable {sha256Hex : List UInt8 → Text} {isDate : Text → Bool}

/-! ## every run -/

/-- What holds between the steps. -/
structure Session.Sound (sha256Hex : List UInt8 → Text) (isDate : Text → Bool) (s : Session) :
    Prop where
  recoverable : Recoverable sha256Hex isDate s.files
  returned : ∀ kh ∈ s.returned, Decided sha256Hex isDate s.files kh.1 kh.2
  entries : ∀ entries, s.entries = some entries → Clean sha256Hex isDate s.files ∧
    OnDisk sha256Hex isDate s.files entries

theorem Session.sound_empty : Session.empty.Sound sha256Hex isDate where
  recoverable := by
    refine ⟨[], [], rfl, .inl rfl, by simp, fun name content hlookup => ?_⟩
    simp [Session.empty] at hlookup
  returned := by simp [Session.empty]
  entries := by simp [Session.empty]

variable {files : Files}

theorem Clean.recoverable (h : Clean sha256Hex isDate files) :
    Recoverable sha256Hex isDate files := by
  obtain ⟨logged, h⟩ := h
  exact ⟨logged, [], h⟩

/-- A crash keeps what was returned. -/
theorem Session.Sound.crashed {s : Session} (h : s.Sound sha256Hex isDate)
    (hkeeps : Keeps sha256Hex isDate s.files files) :
    ({ s with files := files, entries := none } : Session).Sound sha256Hex isDate where
  recoverable := hkeeps.1
  returned kh hkh := hkeeps.2 _ _ (h.returned kh hkh)
  entries := by simp

theorem Session.Sound.step {s s' : Session} {event : Session.Event}
    (hstep : Session.Step sha256Hex isDate ShortOfFeed s event s')
    (h : s.Sound sha256Hex isDate) : s'.Sound sha256Hex isDate := by
  cases hstep with
  | opened hclosed hnow hrun =>
      obtain ⟨m, hm, hsame, hclean, hknows⟩ :=
        (meets_openJournal hnow h.recoverable).executes hrun
      cases hm
      refine ⟨hclean.recoverable, fun kh hkh => (h.returned kh hkh).of_decisions hsame, ?_⟩
      rintro _ ⟨⟩
      exact ⟨hclean, fun key hash hlookup => ((hknows key hash).mp hlookup).of_decisions hsame⟩
  | openFailed hclosed hnow hrun =>
      obtain ⟨m, hm, -⟩ := (meets_openJournal hnow h.recoverable).executes hrun
      cases hm
  | openCrashed hclosed hnow hrun =>
      have hkeeps := (meets_openJournal hnow h.recoverable).crashes hrun
      rw [show s.entries = none from hclosed]
      exact h.crashed hkeeps
  | recorded hopen hnow hrun =>
      obtain ⟨hclean, hdisk⟩ := h.entries _ hopen
      obtain ⟨hclean', hkeeps, hok⟩ := (meets_recordSerially hclean hdisk).executes hrun
      obtain ⟨hdisk', hdecided⟩ := hok _ rfl
      refine ⟨hclean'.recoverable, fun kh hkh => ?_, ?_⟩
      · rcases List.mem_append.mp hkh with hold | hnew
        · exact hkeeps _ _ (h.returned kh hold)
        · obtain rfl := List.mem_singleton.mp hnew
          exact hdecided
      · rintro _ ⟨⟩
        exact ⟨hclean', hdisk'⟩
  | recordFailed hopen hnow hrun =>
      obtain ⟨hclean, hdisk⟩ := h.entries _ hopen
      obtain ⟨hclean', hkeeps, -⟩ := (meets_recordSerially hclean hdisk).executes hrun
      refine ⟨hclean'.recoverable, fun kh hkh => hkeeps _ _ (h.returned kh hkh), ?_⟩
      intro entries hentries
      obtain rfl : _ = entries := Option.some.inj (hopen.symm.trans hentries)
      exact ⟨hclean', fun key hash hlookup => hkeeps _ _ (hdisk key hash hlookup)⟩
  | recordCrashed hopen hnow hrun =>
      obtain ⟨hclean, hdisk⟩ := h.entries _ hopen
      exact h.crashed ((meets_recordSerially hclean hdisk).crashes hrun)
  | restarted => exact ⟨h.recoverable, h.returned, by simp⟩

/-- As long as no crash leaves a line that lacks its line feed only, `open` returns
in every state a session reaches, never throws, and knows every recorded decision. -/
theorem journal_recovers {tr : List Session.Event} {s : Session}
    (hrun : Run (Session.Step sha256Hex isDate ShortOfFeed) Session.empty tr s) {now : Text}
    (hnow : isDate now = true) :
    (∃ r files, Executes Files.Exec (openJournal sha256Hex isDate now) s.files r files) ∧
    ∀ r files, Executes Files.Exec (openJournal sha256Hex isDate now) s.files r files →
      ∃ entries, r = .ok entries ∧ ∀ kh ∈ s.returned, entries.lookup kh.1 = some kh.2 := by
  have hsound : s.Sound sha256Hex isDate :=
    hrun.invariant (fun hstep h => h.step hstep) Session.sound_empty
  refine ⟨exists_executes (fun c s => ⟨_, _, s.exec_call c⟩) _ _, fun r files hopen => ?_⟩
  obtain ⟨entries, rfl, -, -, hknows⟩ :=
    (meets_openJournal hnow hsound.recoverable).executes hopen
  exact ⟨entries, rfl, fun kh hkh => (hknows _ _).mpr (hsound.returned kh hkh)⟩

/-! ## a sample -/

theorem Files.ext_entries {files' : Files} (h : files.log = files'.log ∧
    files.decisions.entries = files'.decisions.entries) : files = files' := by
  obtain ⟨hlog, hdecisions⟩ := h
  obtain ⟨log, decisions⟩ := files
  obtain ⟨log', decisions'⟩ := files'
  obtain rfl : log = log' := hlog
  obtain rfl : decisions = decisions' := AList.ext hdecisions
  rfl

/-- A run of the calls as a function, compared entry by entry. -/
theorem executes_of_run {p : FileProgram Entries} {files' : Files} {r : JsResult Entries}
    (h : (Program.run (fun c s => s.call c) p files).1.map AList.entries = r.map AList.entries ∧
      (Program.run (fun c s => s.call c) p files).2.log = files'.log ∧
      (Program.run (fun c s => s.call c) p files).2.decisions.entries = files'.decisions.entries) :
    Executes Files.Exec p files r files' := by
  obtain ⟨hr, hfiles⟩ := h
  have hrun := executes_run (fun c s => Files.exec_call c s) p files
  rw [Files.ext_entries hfiles] at hrun
  cases hresult : (Program.run (fun c s => Files.call c s) p files).1 with
  | error error' =>
      rw [hresult] at hr hrun
      cases r with
      | error error => exact (Except.error.inj hr) ▸ hrun
      | ok entries => cases hr
  | ok entries' =>
      rw [hresult] at hr hrun
      cases r with
      | error error => cases hr
      | ok entries =>
          obtain rfl : entries' = entries := AList.ext (Except.ok.inj hr)
          exact hrun

def sampleEntry : Entry sampleIsDate :=
  ⟨sampleKey, List.replicate 64 0x61, sampleNow, by decide +kernel⟩

def sampleEntry' : Entry sampleIsDate :=
  ⟨sampleKey', List.replicate 64 0x62, sampleNow, by decide +kernel⟩

/-- The first decision is on disk, and this much of its line. -/
def sampleFiles (k : ℕ) : Files :=
  ⟨sampleEntry.line.take k,
    (∅ : Store Text (List UInt8)).insert (decisionFileName sampleSha256Hex sampleKey)
      sampleEntry.line⟩

theorem sample_opened (cut : List UInt8 → ℕ → Prop) :
    Session.Step sampleSha256Hex sampleIsDate cut .empty .opened
      { Session.empty with entries := some ∅ } :=
  .opened rfl (show sampleIsDate sampleNow = true by decide +kernel)
    (executes_of_run (by decide +kernel))

/-- The append of the first record is cut off after `k` bytes. -/
theorem sample_crashed (cut : List UInt8 → ℕ → Prop) {k : ℕ} (hk : k < sampleEntry.line.length)
    (hcut : cut sampleEntry.line k) :
    Session.Step sampleSha256Hex sampleIsDate cut { Session.empty with entries := some ∅ } .crashed
      ⟨sampleFiles k, none, []⟩ := by
  have hfiles : (advance (fun c s => Files.call c s) 3 (recordSerially sampleSha256Hex sampleIsDate
      ∅ sampleKey (List.replicate 64 0x61) sampleNow) ⟨[], ∅⟩).2 = sampleFiles 0 :=
    Files.ext_entries (by decide +kernel)
  have hcrash : Crashes Files.Exec (Files.Tear cut) (recordSerially sampleSha256Hex sampleIsDate
      ∅ sampleKey (List.replicate 64 0x61) sampleNow) ⟨[], ∅⟩ (sampleFiles k) := by
    refine crashes_advance (fun c s => Files.exec_call c s) 3 (c := .append sampleEntry.line)
      (by decide +kernel) ?_
    rw [hfiles]
    exact .append (sampleFiles 0) hk hcut
  exact .recordCrashed rfl (show sampleIsDate sampleNow = true by decide +kernel) hcrash

def sampleEntries : Entries := (∅ : Entries).insert sampleKey (List.replicate 64 0x61)

theorem sample_recorded {cut : List UInt8 → ℕ → Prop} :
    Session.Step sampleSha256Hex sampleIsDate cut ⟨files, some sampleEntries, []⟩
      (.recorded sampleKey (List.replicate 64 0x61))
      ⟨files, some sampleEntries, [(sampleKey, List.replicate 64 0x61)]⟩ := by
  have hknown : recordSerially sampleSha256Hex sampleIsDate sampleEntries sampleKey
      (List.replicate 64 0x61) sampleNow = pure sampleEntries := by
    rw [recordSerially, show sampleEntries.lookup sampleKey = _ from AList.lookup_insert _]
    exact if_neg (not_not.mpr rfl)
  refine .recorded rfl (show sampleIsDate sampleNow = true by decide +kernel) ?_
  rw [hknown]
  exact .done _ _

/-- Twenty bytes of the line are cut off and the line is written again. -/
theorem torn_line_recovers :
    Run (Session.Step sampleSha256Hex sampleIsDate ShortOfFeed) .empty
      [.opened, .crashed, .opened, .recorded sampleKey (List.replicate 64 0x61)]
      ⟨sampleFiles sampleEntry.line.length, some sampleEntries,
        [(sampleKey, List.replicate 64 0x61)]⟩ ∧
    sampleIsDate sampleNow = true ∧
    ∀ r files, Executes Files.Exec (openJournal sampleSha256Hex sampleIsDate sampleNow)
        (sampleFiles sampleEntry.line.length) r files →
      ∃ entries, r = .ok entries ∧ entries.lookup sampleKey = some (List.replicate 64 0x61) := by
  have hnow : sampleIsDate sampleNow = true := by decide +kernel
  have hrun : Run (Session.Step sampleSha256Hex sampleIsDate ShortOfFeed) .empty
      ([.opened] ++ [.crashed] ++ [.opened] ++ [.recorded sampleKey (List.replicate 64 0x61)])
      ⟨sampleFiles sampleEntry.line.length, some sampleEntries,
        [(sampleKey, List.replicate 64 0x61)]⟩ := by
    have hcrashed := sample_crashed ShortOfFeed (k := 20) (by decide +kernel)
      (show 20 + 1 ≠ sampleEntry.line.length by decide +kernel)
    have hreopened : Session.Step sampleSha256Hex sampleIsDate ShortOfFeed
        ⟨sampleFiles 20, none, []⟩ .opened
        ⟨sampleFiles sampleEntry.line.length, some sampleEntries, []⟩ :=
      .opened rfl hnow
        (executes_of_run (by decide +kernel))
    exact ((((Run.single (sample_opened _)).snoc hcrashed).snoc hreopened).snoc sample_recorded)
  refine ⟨hrun, hnow, fun r files hopen => ?_⟩
  obtain ⟨entries, hok, hknows⟩ := (journal_recovers hrun hnow).2 r files hopen
  exact ⟨entries, hok, hknows _ (List.mem_singleton_self _)⟩

/-- A line that lacks its line feed only is taken for whole, and the next line is
written behind it. -/
theorem glued_lines_corrupt : ∃ tr s files,
    Run (Session.Step sampleSha256Hex sampleIsDate fun _ _ => True) .empty tr s ∧
    (sampleKey', List.replicate 64 0x62) ∈ s.returned ∧
    Executes Files.Exec (openJournal sampleSha256Hex sampleIsDate sampleNow) s.files
      (.error (.error "oracle signature journal is corrupt")) files := by
  have hnow : sampleIsDate sampleNow = true := by decide +kernel
  let glued : Files := ⟨sampleEntry.bytes ++ sampleEntry'.line,
    (sampleFiles 0).decisions.insert (decisionFileName sampleSha256Hex sampleKey')
      sampleEntry'.line⟩
  let entries : Entries := sampleEntries.insert sampleKey' (List.replicate 64 0x62)
  have hcrashed := sample_crashed (fun _ _ => True) (k := sampleEntry.bytes.length)
    (by decide +kernel) trivial
  have hreopened : Session.Step sampleSha256Hex sampleIsDate (fun _ _ => True)
      ⟨sampleFiles sampleEntry.bytes.length, none, []⟩ .opened
      ⟨sampleFiles sampleEntry.bytes.length, some sampleEntries, []⟩ :=
    .opened rfl hnow (executes_of_run (by decide +kernel))
  have hrecord : Executes Files.Exec (recordSerially sampleSha256Hex sampleIsDate sampleEntries
      sampleKey' (List.replicate 64 0x62) sampleNow) (sampleFiles sampleEntry.bytes.length)
      (.ok entries) glued :=
    executes_of_run (by decide +kernel)
  have hrecorded : Session.Step sampleSha256Hex sampleIsDate (fun _ _ => True)
      ⟨sampleFiles sampleEntry.bytes.length, some sampleEntries, []⟩
      (.recorded sampleKey' (List.replicate 64 0x62))
      ⟨glued, some entries, [(sampleKey', List.replicate 64 0x62)]⟩ :=
    .recorded rfl hnow hrecord
  refine ⟨_, _, glued, (((Run.single (sample_opened _)).snoc hcrashed).snoc hreopened).snoc
    hrecorded, List.mem_singleton_self _, ?_⟩
  exact executes_of_run (by decide +kernel)

end CalledIt.Signer
