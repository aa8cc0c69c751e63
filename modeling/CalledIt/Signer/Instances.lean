import CalledIt.Lib.Run
import CalledIt.Signer.Journal

/-!
# CalledIt.Signer.Instances

Any number of signers on one journal.

The instances run the programs of `Journal` one file call at a time, in any order.
An instance may stop before any call or in the middle of an append, and a crash of
the machine stops them all.  Such a crash loses directory entries that were not
synced: the loser of a `link` reads the winner's file and does not sync the
directory, so what it has returned for may be lost, and the key decided anew.

Whatever a crash does to the log, no two records of a key that returned differ as
long as it keeps the decision files that a call has read (`records_agree`).
-/

namespace CalledIt.Signer

open Lib Lib.Json Lib.Program
open Sdk (JsError JsResult)

/-! ## the disk -/

/-- The files with the decision files whose directory entry is synced, and those that
some call has read. -/
structure Disk where
  files : Files
  synced : List Text
  read : List Text

def Disk.empty : Disk := ⟨⟨[], ∅⟩, [], []⟩

/-- The disk after a call that left these files. -/
def Disk.after (disk : Disk) (files : Files) : FileCall → Disk
  | .syncDirectory => ⟨files, files.decisions.keys, disk.read⟩
  | .readDecisionFile name => ⟨files, disk.synced, name :: disk.read⟩
  | _ => ⟨files, disk.synced, disk.read⟩

def Disk.Exec (c : FileCall) (disk : Disk) (r : c.Reply) (disk' : Disk) : Prop :=
  ∃ files, Files.Exec c disk.files r files ∧ disk' = disk.after files c

/-- A crash keeps what is synced and adds nothing; of other decision files it keeps
some. -/
structure Disk.KeepsSynced (disk : Disk) (files : Files) : Prop where
  synced : ∀ name ∈ disk.synced,
    files.decisions.lookup name = disk.files.decisions.lookup name
  kept : ∀ name content, files.decisions.lookup name = some content →
    disk.files.decisions.lookup name = some content

/-- It keeps what a call has read, too. -/
def Disk.KeepsRead (disk : Disk) (files : Files) : Prop :=
  disk.KeepsSynced files ∧
  ∀ name ∈ disk.read, files.decisions.lookup name = disk.files.decisions.lookup name

/-! ## instances -/

/-- What an instance is at: `open`, or `record` with the decisions in memory. -/
inductive Task
  | opening
  | recording (entries : Entries) (key canonicalSha256Hex : Text)

/-- Records of one instance wait for each other. -/
inductive Instance
  | closed
  | idle (entries : Entries)
  | running (task : Task) (rest : FileProgram Entries)

structure System where
  disk : Disk
  instances : ℕ → Instance
  returned : List (Text × Text)

def System.empty : System := ⟨.empty, fun _ => .closed, []⟩

def System.set (s : System) (i : ℕ) (inst : Instance) : System :=
  { s with instances := Function.update s.instances i inst }

/-- A program has come to its end.  A record that threw leaves the decisions in
memory as they were. -/
def System.finish (s : System) (i : ℕ) : Task → JsResult Entries → System
  | .opening, .ok entries => s.set i (.idle entries)
  | .opening, .error _ => s.set i .closed
  | .recording _ key hash, .ok entries =>
      { s.set i (.idle entries) with returned := s.returned ++ [(key, hash)] }
  | .recording entries _ _, .error _ => s.set i (.idle entries)

/-- After a crash all that is left is on the disk. -/
def System.restart (s : System) (files : Files) : System :=
  ⟨⟨files, files.decisions.keys, s.disk.read⟩, fun _ => .closed, s.returned⟩

inductive System.Event
  | opens (i : ℕ) (now : Text)
  | records (i : ℕ) (key canonicalSha256Hex now : Text)
  | calls (i : ℕ)
  | returns (i : ℕ)
  | stops (i : ℕ)
  | tears (i k : ℕ)
  | crashes

section Systems

variable (sha256Hex : List UInt8 → Text) (isDate : Text → Bool) (crash : Disk → Files → Prop)

inductive System.Step : System → System.Event → System → Prop
  | opens {s : System} {i : ℕ} (now : Text) : s.instances i = .closed →
      Step s (.opens i now) (s.set i (.running .opening (openJournal sha256Hex isDate now)))
  | records {s : System} {i : ℕ} {entries : Entries} (key hash now : Text) :
      s.instances i = .idle entries →
      Step s (.records i key hash now) (s.set i (.running (.recording entries key hash)
        (recordSerially sha256Hex isDate entries key hash now)))
  | calls {s : System} {i : ℕ} {task : Task} {c : FileCall}
      {next : c.Reply → FileProgram Entries} {r : c.Reply} {disk : Disk} :
      s.instances i = .running task (.call c next) → s.disk.Exec c r disk →
      Step s (.calls i) ({ s with disk := disk }.set i (.running task (next r)))
  | returns {s : System} {i : ℕ} {task : Task} {result : JsResult Entries} :
      s.instances i = .running task (.done result) →
      Step s (.returns i) (s.finish i task result)
  | stops (s : System) (i : ℕ) : Step s (.stops i) (s.set i .closed)
  | tears {s : System} {i k : ℕ} {task : Task} {bytes : List UInt8}
      {next : Unit → FileProgram Entries} :
      s.instances i = .running task (.call (.append bytes) next) → k < bytes.length →
      Step s (.tears i k) ({ s with disk := { s.disk with files := { s.disk.files with
        log := s.disk.files.log ++ bytes.take k } } }.set i .closed)
  | crashes {s : System} {files : Files} : crash s.disk files → Step s .crashes (s.restart files)

end Systems

variable {sha256Hex : List UInt8 → Text} {isDate : Text → Bool}

/-! ## what the files vouch for -/

/-- Decision files that have been read stay as they are. -/
structure Disk.Grows (disk disk' : Disk) : Prop where
  read : ∀ name ∈ disk.read, name ∈ disk'.read
  decisions : ∀ name ∈ disk.read, ∀ content, disk.files.decisions.lookup name = some content →
    disk'.files.decisions.lookup name = some content

/-- A decision file has been read, and this is the entry in it. -/
def Disk.Reads (isDate : Text → Bool) (disk : Disk) (name : Text) (entry : Json) : Prop :=
  name ∈ disk.read ∧ ∃ content, disk.files.decisions.lookup name = some content ∧
    (parse (Utf8.decode content)).filter (validEntry isDate) = some entry

/-- The decision file of the key has been read, and it holds the hash. -/
def Vouched (sha256Hex : List UInt8 → Text) (isDate : Text → Bool) (disk : Disk)
    (key hash : Text) : Prop :=
  ∃ entry, disk.Reads isDate (decisionFileName sha256Hex key) entry ∧ keyOf entry = key ∧
    hashOf entry = hash

def AllVouched (sha256Hex : List UInt8 → Text) (isDate : Text → Bool) (disk : Disk)
    (entries : Entries) : Prop :=
  ∀ key hash, entries.lookup key = some hash → Vouched sha256Hex isDate disk key hash

section Vouching

variable {disk disk' : Disk}

theorem Disk.Reads.grows {name : Text} {entry : Json} (h : disk.Reads isDate name entry)
    (hgrows : disk.Grows disk') : disk'.Reads isDate name entry := by
  obtain ⟨hread, content, hlookup, hentry⟩ := h
  exact ⟨hgrows.read name hread, content, hgrows.decisions name hread content hlookup, hentry⟩

theorem Vouched.grows {key hash : Text} (h : Vouched sha256Hex isDate disk key hash)
    (hgrows : disk.Grows disk') : Vouched sha256Hex isDate disk' key hash := by
  obtain ⟨entry, hreads, hkey, hhash⟩ := h
  exact ⟨entry, hreads.grows hgrows, hkey, hhash⟩

theorem AllVouched.grows {entries : Entries} (h : AllVouched sha256Hex isDate disk entries)
    (hgrows : disk.Grows disk') : AllVouched sha256Hex isDate disk' entries :=
  fun key hash hlookup => (h key hash hlookup).grows hgrows

/-- One file holds one hash. -/
theorem vouched_unique {key hash hash' : Text} (h : Vouched sha256Hex isDate disk key hash)
    (h' : Vouched sha256Hex isDate disk key hash') : hash = hash' := by
  obtain ⟨entry, ⟨-, content, hlookup, hentry⟩, -, rfl⟩ := h
  obtain ⟨entry', ⟨-, content', hlookup', hentry'⟩, -, rfl⟩ := h'
  rw [hlookup, Option.some.injEq] at hlookup'
  rw [← hlookup', hentry, Option.some.injEq] at hentry'
  rw [hentry']

theorem allVouched_empty : AllVouched sha256Hex isDate disk ∅ := by
  intro key hash hlookup
  simp at hlookup

theorem allVouched_remember {entries entries' : Entries} {entry : Json}
    (h : AllVouched sha256Hex isDate disk entries)
    (hentry : Vouched sha256Hex isDate disk (keyOf entry) (hashOf entry))
    (hok : remember entries entry = .ok entries') : AllVouched sha256Hex isDate disk entries' := by
  have hinsert : entries' = entries.insert (keyOf entry) (hashOf entry) := by
    unfold remember at hok
    split at hok
    · split_ifs at hok
      exact (Except.ok.inj hok).symm
    · exact (Except.ok.inj hok).symm
  subst hinsert
  intro key hash hlookup
  obtain ⟨rfl, rfl⟩ | ⟨-, hold⟩ := Store.lookup_insert_iff.mp hlookup
  · exact hentry
  · exact h key hash hold

/-- No call takes a decision file away. -/
theorem exec_decisions {c : FileCall} {files files' : Files} {r : c.Reply}
    (h : Files.Exec c files r files') {name : Text} {content : List UInt8}
    (hlookup : files.decisions.lookup name = some content) :
    files'.decisions.lookup name = some content := by
  cases h with
  | created _ _ hnone =>
      rw [Store.lookup_insert_iff]
      refine .inr ⟨?_, hlookup⟩
      rintro rfl
      simp [hlookup] at hnone
  | _ => exact hlookup

theorem disk_interference : Interference Disk.Exec Disk.Grows where
  refl disk := ⟨fun _ hread => hread, fun _ _ _ hlookup => hlookup⟩
  trans h h' := {
    read := fun name hread => h'.read name (h.read name hread)
    decisions := fun name hread content hlookup =>
      h'.decisions name (h.read name hread) content (h.decisions name hread content hlookup) }
  call := by
    rintro c disk r _ ⟨files, hexec, rfl⟩
    refine ⟨fun name hread => ?_, fun name _ content hlookup => ?_⟩
    · cases c <;> simp [Disk.after, hread]
    · have hfiles : (disk.after files c).files = files := by cases c <;> rfl
      rw [hfiles]
      exact exec_decisions hexec hlookup

end Vouching

/-! ## the programs -/

section Programs

variable {disk : Disk}

theorem secures_readDecision (name : Text) :
    Secures Disk.Exec Disk.Grows (fun entry disk => disk.Reads isDate name entry)
      (readDecision isDate name) disk := by
  refine secures_bind (P := fun reply disk => name ∈ disk.read ∧
    disk.files.decisions.lookup name = reply) disk_interference ?_ ?_
  · refine secures_perform fun r t u _ hexec => ?_
    obtain ⟨files, hcall, rfl⟩ := hexec
    cases hcall
    exact ⟨List.mem_cons_self, rfl⟩
  · rintro reply t - ⟨hread, hlookup⟩
    cases reply with
    | none => exact secures_throw
    | some content =>
        cases hentry : (parse (Utf8.decode content)).filter (validEntry isDate) with
        | none =>
            simp only [hentry]
            exact secures_throw
        | some entry =>
            simp only [hentry]
            exact secures_pure ⟨hread, content, hlookup, hentry⟩

theorem secures_installDecision (entry : Json) :
    Secures Disk.Exec Disk.Grows (fun decision disk => keyOf decision = keyOf entry ∧
        Vouched sha256Hex isDate disk (keyOf decision) (hashOf decision))
      (installDecision sha256Hex isDate entry) disk := by
  have hread : ∀ disk, Secures Disk.Exec Disk.Grows
      (fun decision disk => keyOf decision = keyOf entry ∧
        Vouched sha256Hex isDate disk (keyOf decision) (hashOf decision))
      (do
        let decision ← readDecision isDate (decisionFileName sha256Hex (keyOf entry))
        if keyOf decision ≠ keyOf entry then
          throw (.error "oracle signature decision is corrupt")
        return decision) disk := by
    intro disk
    refine secures_bind disk_interference (secures_readDecision _) fun decision t _ hreads => ?_
    by_cases hkey : keyOf decision = keyOf entry
    · rw [if_neg (by simp [hkey])]
      rw [← hkey] at hreads
      exact secures_pure ⟨hkey, decision, hreads, rfl, rfl⟩
    · rw [if_pos hkey]
      exact secures_throw
  rw [installDecision]
  split_ifs
  · exact secures_throw
  · refine secures_bind disk_interference (secures_true _) fun (created : Bool) t _ _ => ?_
    cases created with
    | false => exact hread t
    | true => exact secures_bind disk_interference (secures_true _) fun _ u _ _ => hread u

variable {entries : Entries}

theorem secures_readDecisions {names : List Text} (h : AllVouched sha256Hex isDate disk entries) :
    Secures Disk.Exec Disk.Grows (fun entries disk => AllVouched sha256Hex isDate disk entries)
      (readDecisions sha256Hex isDate names entries) disk := by
  induction names generalizing entries disk with
  | nil => exact secures_pure h
  | cons name names ih =>
      refine secures_bind disk_interference (secures_readDecision name) ?_
      intro decision t hgrows hreads
      by_cases hname : decisionFileName sha256Hex (keyOf decision) = name
      · rw [if_neg (by simp [hname])]
        refine secures_bind (P := fun entries disk => AllVouched sha256Hex isDate disk entries)
          disk_interference (secures_lift fun entries' hok => ?_) fun entries' u _ h' => ih h'
        subst hname
        exact allVouched_remember (h.grows hgrows) ⟨decision, hreads, rfl, rfl⟩ hok
      · rw [if_pos hname]
        exact secures_throw

theorem secures_installEntries {listed : List Json} (h : AllVouched sha256Hex isDate disk entries) :
    Secures Disk.Exec Disk.Grows (fun entries disk => AllVouched sha256Hex isDate disk entries)
      (installEntries sha256Hex isDate listed entries) disk := by
  induction listed generalizing entries disk with
  | nil => exact secures_pure h
  | cons entry listed ih =>
      refine secures_bind disk_interference (secures_installDecision entry) ?_
      rintro decision t hgrows ⟨hkey, hvouched⟩
      by_cases hhash : hashOf decision = hashOf entry
      · rw [if_neg (by simp [hhash])]
        refine secures_bind (P := fun entries disk => AllVouched sha256Hex isDate disk entries)
          disk_interference (secures_lift fun entries' hok => ?_) fun entries' u _ h' => ih h'
        rw [hkey, hhash] at hvouched
        exact allVouched_remember (h.grows hgrows) hvouched hok
      · rw [if_pos hhash]
        exact secures_throw

theorem secures_openJournal (now : Text) :
    Secures Disk.Exec Disk.Grows (fun entries disk => AllVouched sha256Hex isDate disk entries)
      (openJournal sha256Hex isDate now) disk := by
  refine secures_bind disk_interference (secures_true _) fun body t₁ _ _ => ?_
  refine secures_bind disk_interference (secures_true _) ?_
  rintro ⟨journalEntries, interruptedAuditOffset⟩ t₂ - -
  refine secures_bind disk_interference (secures_true _) fun names t₃ _ _ => ?_
  refine secures_bind disk_interference (secures_readDecisions allVouched_empty) ?_
  intro entries t₄ _ hread
  refine secures_bind disk_interference (secures_installEntries hread) ?_
  intro entries' t₅ _ hinstalled
  have hfinish : ∀ disk, t₅.Grows disk → Secures Disk.Exec Disk.Grows
      (fun entries disk => AllVouched sha256Hex isDate disk entries)
      (do
        appendMissing journalEntries now (entries'.entries.map fun e => (e.1, e.2))
        return entries' : FileProgram Entries) disk := by
    intro disk hgrows
    refine secures_bind disk_interference (secures_true _) fun _ t hgrows' _ => ?_
    exact secures_pure ((hinstalled.grows hgrows).grows hgrows')
  cases interruptedAuditOffset with
  | none => exact hfinish t₅ (disk_interference.refl t₅)
  | some offset =>
      exact secures_bind disk_interference (secures_true _) fun _ u hgrows _ => hfinish u hgrows

theorem secures_recordSerially (key hash now : Text)
    (h : AllVouched sha256Hex isDate disk entries) :
    Secures Disk.Exec Disk.Grows (fun entries disk => AllVouched sha256Hex isDate disk entries ∧
        Vouched sha256Hex isDate disk key hash)
      (recordSerially sha256Hex isDate entries key hash now) disk := by
  rw [recordSerially]
  cases hprior : entries.lookup key with
  | some prior =>
      by_cases hsame : prior = hash
      · subst hsame
        simp only [ne_eq, not_true_eq_false, if_false]
        exact secures_pure ⟨h, h key prior hprior⟩
      · simp only [ne_eq, hsame, not_false_eq_true, if_true]
        exact secures_throw
  | none =>
      refine secures_bind disk_interference (secures_installDecision _) ?_
      rintro decision t hgrows ⟨(hkey : keyOf decision = key), hvouched⟩
      by_cases hhash : hashOf decision = hash
      · rw [if_neg (by simp [hhash])]
        refine secures_bind disk_interference (secures_true _) fun _ u hgrows' _ => ?_
        have hlater := hvouched.grows hgrows'
        refine secures_lift fun entries' hok =>
          ⟨allVouched_remember ((h.grows hgrows).grows hgrows') hlater hok, ?_⟩
        rwa [hkey, hhash] at hlater
      · rw [if_pos hhash]
        exact secures_throw

end Programs

/-! ## every run -/

/-- What a task's program returns. -/
def Task.Done (sha256Hex : List UInt8 → Text) (isDate : Text → Bool) :
    Task → Entries → Disk → Prop
  | .opening, entries, disk => AllVouched sha256Hex isDate disk entries
  | .recording _ key hash, entries, disk => AllVouched sha256Hex isDate disk entries ∧
      Vouched sha256Hex isDate disk key hash

/-- The decisions in memory during a task. -/
def Task.entries : Task → Entries
  | .opening => ∅
  | .recording entries _ _ => entries

def Instance.Sound (sha256Hex : List UInt8 → Text) (isDate : Text → Bool) (disk : Disk) :
    Instance → Prop
  | .closed => True
  | .idle entries => AllVouched sha256Hex isDate disk entries
  | .running task rest => AllVouched sha256Hex isDate disk task.entries ∧
      Secures Disk.Exec Disk.Grows (task.Done sha256Hex isDate) rest disk

structure System.Sound (sha256Hex : List UInt8 → Text) (isDate : Text → Bool) (s : System) :
    Prop where
  returned : ∀ kh ∈ s.returned, Vouched sha256Hex isDate s.disk kh.1 kh.2
  instances : ∀ i, (s.instances i).Sound sha256Hex isDate s.disk

theorem Task.Done.grows {task : Task} {entries : Entries} {disk disk' : Disk}
    (h : task.Done sha256Hex isDate entries disk) (hgrows : disk.Grows disk') :
    task.Done sha256Hex isDate entries disk' := by
  cases task with
  | opening => exact AllVouched.grows h hgrows
  | recording _ key hash => exact ⟨h.1.grows hgrows, h.2.grows hgrows⟩

theorem Instance.Sound.grows {inst : Instance} {disk disk' : Disk}
    (h : inst.Sound sha256Hex isDate disk) (hgrows : disk.Grows disk') :
    inst.Sound sha256Hex isDate disk' := by
  cases inst with
  | closed => trivial
  | idle entries => exact AllVouched.grows h hgrows
  | running task rest =>
      exact ⟨h.1.grows hgrows,
        h.2.later disk_interference (fun _ _ _ hlater hdone => hdone.grows hlater) hgrows⟩

variable {s : System}

theorem System.Sound.grows (h : s.Sound sha256Hex isDate) {disk : Disk}
    (hgrows : s.disk.Grows disk) : ({ s with disk := disk } : System).Sound sha256Hex isDate where
  returned kh hkh := (h.returned kh hkh).grows hgrows
  instances i := (h.instances i).grows hgrows

theorem System.Sound.set (h : s.Sound sha256Hex isDate) {i : ℕ} {inst : Instance}
    (hinst : inst.Sound sha256Hex isDate s.disk) : (s.set i inst).Sound sha256Hex isDate where
  returned := h.returned
  instances j := by
    by_cases hj : j = i
    · subst hj
      simpa [System.set] using hinst
    · simpa [System.set, hj] using h.instances j

theorem System.Sound.finish (h : s.Sound sha256Hex isDate) {i : ℕ} {task : Task}
    {result : JsResult Entries}
    (hinst : (Instance.running task (.done result)).Sound sha256Hex isDate s.disk) :
    (s.finish i task result).Sound sha256Hex isDate := by
  obtain ⟨hbefore, -, hdone⟩ := hinst
  cases task with
  | opening =>
      cases result with
      | error error => exact h.set trivial
      | ok entries => exact h.set (hdone entries rfl)
  | recording before key hash =>
      cases result with
      | error error => exact h.set hbefore
      | ok entries =>
          obtain ⟨hentries, hvouched⟩ := hdone entries rfl
          have hset := h.set (i := i) (show (Instance.idle entries).Sound _ _ _ from hentries)
          refine ⟨fun kh hkh => ?_, hset.instances⟩
          rcases List.mem_append.mp hkh with hold | hnew
          · exact h.returned kh hold
          · obtain rfl := List.mem_singleton.mp hnew
            exact hvouched

variable {s' : System}

theorem System.Sound.step {event : System.Event}
    (hstep : System.Step sha256Hex isDate Disk.KeepsRead s event s')
    (h : s.Sound sha256Hex isDate) : s'.Sound sha256Hex isDate := by
  cases hstep with
  | opens now hclosed => exact h.set ⟨allVouched_empty, secures_openJournal now⟩
  | @records i entries key hash now hidle =>
      have hentries := h.instances i
      rw [hidle] at hentries
      exact h.set ⟨hentries, secures_recordSerially key hash now hentries⟩
  | @calls i task c next r disk hrunning hexec =>
      have hinst := h.instances i
      rw [hrunning] at hinst
      have hgrows := disk_interference.call hexec
      refine (h.grows hgrows).set ⟨hinst.1.grows hgrows, ?_⟩
      exact hinst.2.call disk_interference hexec
  | @returns i task result hrunning =>
      have hinst := h.instances i
      rw [hrunning] at hinst
      exact h.finish hinst
  | stops i => exact h.set trivial
  | tears hrunning hk =>
      refine (h.grows ?_).set trivial
      exact ⟨fun _ hread => hread, fun _ _ _ hlookup => hlookup⟩
  | crashes hcrash =>
      have hgrows : s.disk.Grows (s.restart _).disk :=
        ⟨fun _ hread => hread, fun name hread content hlookup =>
          (hcrash.2 name hread).trans hlookup⟩
      exact ⟨fun kh hkh => (h.returned kh hkh).grows hgrows, fun _ => trivial⟩

theorem System.sound_empty : System.empty.Sound sha256Hex isDate where
  returned := by simp [System.empty]
  instances _ := trivial

/-- Any number of instances, in any order of their file calls, stopped anywhere: as
long as every crash keeps the decision files that a call has read, all records of a
key that ever return carry the same hash. -/
theorem records_agree {tr : List System.Event} {s : System}
    (hrun : Run (System.Step sha256Hex isDate Disk.KeepsRead) System.empty tr s)
    {key hash hash' : Text} (h : (key, hash) ∈ s.returned) (h' : (key, hash') ∈ s.returned) :
    hash = hash' := by
  have hsound : s.Sound sha256Hex isDate :=
    hrun.invariant (fun hstep h => h.step hstep) System.sound_empty
  exact vouched_unique (hsound.returned _ h) (hsound.returned _ h')

/-! ## playing a schedule -/

/-- The files after a crash that keeps no decision file that is not synced. -/
def Disk.loseUnsynced (disk : Disk) : Files where
  log := disk.files.log
  decisions := disk.synced.foldr (fun name kept =>
    match disk.files.decisions.lookup name with
    | some content => kept.insert name content
    | none => kept) ∅

theorem lookup_loseUnsynced (disk : Disk) (name : Text) :
    disk.loseUnsynced.decisions.lookup name =
      if name ∈ disk.synced then disk.files.decisions.lookup name else none := by
  unfold Disk.loseUnsynced
  induction disk.synced with
  | nil => simp
  | cons first rest ih =>
      by_cases hname : name = first
      · subst hname
        cases hlookup : disk.files.decisions.lookup name with
        | some content => simp [hlookup]
        | none =>
            simp only [List.foldr_cons, hlookup, List.mem_cons, true_or, if_true]
            rw [ih, hlookup, ite_self]
      · cases hlookup : disk.files.decisions.lookup first with
        | some content =>
            simp only [List.foldr_cons, hlookup, AList.lookup_insert_ne hname, ih, List.mem_cons,
              hname, false_or]
        | none => simp only [List.foldr_cons, hlookup, ih, List.mem_cons, hname, false_or]

theorem keepsSynced_loseUnsynced (disk : Disk) : disk.KeepsSynced disk.loseUnsynced where
  synced name hname := by rw [lookup_loseUnsynced, if_pos hname]
  kept name content hlookup := by
    rw [lookup_loseUnsynced] at hlookup
    split_ifs at hlookup
    exact hlookup

section Play

variable (sha256Hex : List UInt8 → Text) (isDate : Text → Bool)

/-- One event, if it can happen. -/
def System.act (s : System) : System.Event → Option System
  | .opens i now =>
      match s.instances i with
      | .closed => some (s.set i (.running .opening (openJournal sha256Hex isDate now)))
      | _ => none
  | .records i key hash now =>
      match s.instances i with
      | .idle entries => some (s.set i (.running (.recording entries key hash)
          (recordSerially sha256Hex isDate entries key hash now)))
      | _ => none
  | .calls i =>
      match s.instances i with
      | .running task (.call c next) =>
          some ({ s with disk := s.disk.after (s.disk.files.call c).2 c }.set i
            (.running task (next (s.disk.files.call c).1)))
      | _ => none
  | .returns i =>
      match s.instances i with
      | .running task (.done result) => some (s.finish i task result)
      | _ => none
  | .stops i => some (s.set i .closed)
  | .tears i k =>
      match s.instances i with
      | .running _ (.call (.append bytes) _) =>
          if k < bytes.length then
            some ({ s with disk := { s.disk with files := { s.disk.files with
              log := s.disk.files.log ++ bytes.take k } } }.set i .closed)
          else none
      | _ => none
  | .crashes => some (s.restart s.disk.loseUnsynced)

def System.play : List System.Event → System → Option System
  | [], s => some s
  | event :: events, s => (s.act sha256Hex isDate event).bind (System.play events)

end Play

theorem step_of_act {crash : Disk → Files → Prop} {event : System.Event}
    (hcrash : event = .crashes → crash s.disk s.disk.loseUnsynced)
    (h : s.act sha256Hex isDate event = some s') :
    System.Step sha256Hex isDate crash s event s' := by
  unfold System.act at h
  split at h
  · split at h
    · next hclosed => exact Option.some.inj h ▸ .opens _ hclosed
    · cases h
  · split at h
    · next hidle => exact Option.some.inj h ▸ .records _ _ _ hidle
    · cases h
  · split at h
    · next hrunning =>
        exact Option.some.inj h ▸ .calls hrunning ⟨_, Files.exec_call _ _, rfl⟩
    · cases h
  · split at h
    · next hrunning => exact Option.some.inj h ▸ .returns hrunning
    · cases h
  · exact Option.some.inj h ▸ .stops s _
  · split at h
    · next hrunning =>
        split_ifs at h with hk
        exact Option.some.inj h ▸ .tears hrunning hk
    · cases h
  · exact Option.some.inj h ▸ .crashes (hcrash rfl)

theorem run_of_play {crash : Disk → Files → Prop} {events : List System.Event}
    (hcrash : .crashes ∈ events → ∀ disk, crash disk disk.loseUnsynced)
    (h : System.play sha256Hex isDate events s = some s') :
    Run (System.Step sha256Hex isDate crash) s events s' := by
  induction events generalizing s with
  | nil =>
      obtain rfl := Option.some.inj h
      exact .refl s
  | cons event events ih =>
      obtain ⟨t, hact, hrest⟩ := Option.bind_eq_some_iff.mp h
      have hstep : System.Step sha256Hex isDate crash s event t :=
        step_of_act (fun hevent => hcrash (by simp [hevent]) s.disk) hact
      exact (Run.single hstep).append (ih (fun hmem => hcrash (by simp [hmem])) hrest)

/-- This many calls of an instance and the end of its program. -/
def callsThrough (i calls : ℕ) : List System.Event :=
  List.replicate calls (.calls i) ++ [.returns i]

/-- A process links the decision and stops; two others record it again. -/
def stoppedWinner : List System.Event := List.flatten [
  [.opens 0 sampleNow], callsThrough 0 2, [.opens 1 sampleNow], callsThrough 1 2,
  [.records 0 sampleKey (List.replicate 64 0x61) sampleNow, .calls 0, .stops 0],
  [.records 1 sampleKey (List.replicate 64 0x61) sampleNow], callsThrough 1 3,
  [.opens 0 sampleNow], callsThrough 0 5,
  [.records 0 sampleKey (List.replicate 64 0x61) sampleNow], callsThrough 0 0]

theorem stopped_winner_agrees : ∃ tr s,
    Run (System.Step sampleSha256Hex sampleIsDate Disk.KeepsRead) System.empty tr s ∧
    s.returned = [(sampleKey, List.replicate 64 0x61), (sampleKey, List.replicate 64 0x61)] ∧
    ∀ hash hash', (sampleKey, hash) ∈ s.returned → (sampleKey, hash') ∈ s.returned →
      hash = hash' := by
  have hreturned : (System.play sampleSha256Hex sampleIsDate stoppedWinner .empty).map
      System.returned = some [(sampleKey, List.replicate 64 0x61),
        (sampleKey, List.replicate 64 0x61)] := by decide +kernel
  obtain ⟨s, hplay, hs⟩ := Option.map_eq_some_iff.mp hreturned
  have hrun : Run (System.Step sampleSha256Hex sampleIsDate Disk.KeepsRead) System.empty
      stoppedWinner s :=
    run_of_play (fun hcrash => by simp [stoppedWinner, callsThrough] at hcrash) hplay
  exact ⟨_, s, hrun, hs, fun hash hash' h h' => records_agree hrun h h'⟩

/-- The first instance leaves a torn line, and the fourth has read it when the second
links a decision.  The third finds that decision and returns; the fourth cuts the
log, the third's line with it, and the machine crashes before the second has synced
the directory. -/
def lostLink : List System.Event := List.flatten [
  [.opens 0 sampleNow], callsThrough 0 2, [.opens 1 sampleNow], callsThrough 1 2,
  [.opens 2 sampleNow], callsThrough 2 2,
  [.records 0 sampleKey (List.replicate 64 0x61) sampleNow, .calls 0, .calls 0, .calls 0,
    .tears 0 20],
  [.opens 3 sampleNow, .calls 3, .calls 3, .calls 3],
  [.records 1 sampleKey' (List.replicate 64 0x61) sampleNow, .calls 1],
  [.records 2 sampleKey' (List.replicate 64 0x61) sampleNow], callsThrough 2 3,
  callsThrough 3 2, [.crashes],
  [.opens 0 sampleNow], callsThrough 0 5,
  [.records 0 sampleKey' (List.replicate 64 0x62) sampleNow], callsThrough 0 4]

/-- The crash keeps the log and all that was synced. -/
theorem lost_link_equivocates : ∃ tr s,
    Run (System.Step sampleSha256Hex sampleIsDate fun disk files =>
      disk.KeepsSynced files ∧ files.log = disk.files.log) System.empty tr s ∧
    (sampleKey', List.replicate 64 0x61) ∈ s.returned ∧
    (sampleKey', List.replicate 64 0x62) ∈ s.returned := by
  have hreturned : (System.play sampleSha256Hex sampleIsDate lostLink .empty).map
      System.returned = some [(sampleKey', List.replicate 64 0x61),
        (sampleKey', List.replicate 64 0x62)] := by decide +kernel
  obtain ⟨s, hplay, hs⟩ := Option.map_eq_some_iff.mp hreturned
  refine ⟨_, s, run_of_play (fun _ disk => ⟨keepsSynced_loseUnsynced disk, rfl⟩) hplay, ?_, ?_⟩
  · simp [hs]
  · simp [hs]

end CalledIt.Signer
