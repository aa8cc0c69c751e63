import CalledIt.Lib.Delimiter
import CalledIt.Lib.Json
import CalledIt.Lib.Transducer

/-!
# CalledIt.Txline.Sse

The event-stream parser (`txline/src/sse.ts`).

The buffer is cut at blank lines as the chunks come in.  No frame delimiter can be completed
before one that has been found, so the chunks do not matter (`parseSseStream_flatten`).  Where
all lines end alike, a frame delimiter is the end of a line and a blank one, and the frames are
those of a reader that takes line by line (`parse_lines`).
-/

namespace CalledIt.Txline

open Lib

/-! ## frames -/

structure SseFrame where
  id : Option Text
  event : Option Text
  data : Text
  deriving DecidableEq

def lf : UInt16 := 0x0A
def cr : UInt16 := 0x0D

/-- `/\r\n\r\n|\n\n|\r\r/`. -/
def frameDelimiter : Delimiters UInt16 where
  words := [[cr, lf, cr, lf], [lf, lf], [cr, cr]]
  nonempty := by decide

/-- `/\r\n|\r|\n/`. -/
def lineDelimiter : Delimiters UInt16 where
  words := [[cr, lf], [cr], [lf]]
  nonempty := by decide

/-- The fields that have been read. -/
structure Collected where
  id : Option Text
  event : Option Text
  dataLines : List Text
  deriving DecidableEq

def Collected.empty : Collected := ⟨none, none, []⟩

/-- One leading space goes. -/
def stripSpace : Text → Text
  | [] => []
  | c :: value => if c = 0x20 then value else c :: value

def fieldOf (line : Text) : Text × Text :=
  match line.idxOf? Json.colon with
  | none => (line, stripSpace [])
  | some i => (line.take i, stripSpace (line.drop (i + 1)))

/-- A blank line and a comment say nothing. -/
def Collected.line (collected : Collected) (line : Text) : Collected :=
  if line = [] ∨ line.head? = some Json.colon then collected
  else
    let (field, value) := fieldOf line
    if field = ascii "id" then { collected with id := some value }
    else if field = ascii "event" then { collected with event := some value }
    else if field = ascii "data" then
      { collected with dataLines := collected.dataLines ++ [value] }
    else collected

def Collected.frame (collected : Collected) : Option SseFrame :=
  if collected.id = none ∧ collected.event = none ∧ collected.dataLines = [] then none
  else some ⟨collected.id, collected.event, [lf].intercalate collected.dataLines⟩

def parseFrame (rawFrame : Text) : Option SseFrame :=
  ((lineDelimiter.split rawFrame).foldl Collected.line .empty).frame

/-! ## streams -/

/-- A decoded chunk goes to the end of the buffer, and whole frames are taken off. -/
def readChunk (buffer chunk : Text) : Text × List SseFrame :=
  let (rawFrames, rest) := frameDelimiter.scan (buffer ++ chunk)
  (rest, rawFrames.filterMap parseFrame)

def parseSseStream (chunks : List Text) : List SseFrame := (execute readChunk [] chunks).2

theorem stable_frameDelimiter : frameDelimiter.Stable where
  unique := by decide
  inside := by decide

theorem execute_readChunk {buffer : Text} (hbuffer : frameDelimiter.scan buffer = ([], buffer))
    (chunks : List Text) :
    (execute readChunk buffer chunks).2 =
      (frameDelimiter.scan (buffer ++ chunks.flatten)).1.filterMap parseFrame := by
  induction chunks generalizing buffer with
  | nil => simp [hbuffer]
  | cons chunk chunks ih =>
      have hnext := ih (Delimiters.scan_rest (d := frameDelimiter) (buffer ++ chunk))
      rw [execute_cons, readChunk, hnext, List.flatten_cons, ← List.append_assoc,
        Delimiters.scan_append stable_frameDelimiter (buffer ++ chunk), List.filterMap_append]

/-- The frames of a stream are those of its text. -/
theorem parseSseStream_eq (chunks : List Text) :
    parseSseStream chunks = (frameDelimiter.scan chunks.flatten).1.filterMap parseFrame := by
  have hempty : frameDelimiter.scan [] = ([], []) := Delimiters.scan_of_none rfl
  exact execute_readChunk hempty chunks

/-! ## line by line -/

/-- One line of a reader that hands over what it has collected at each blank line. -/
def readLine (collected : Collected) (line : Text) : Collected × List SseFrame :=
  if line = [] then (.empty, collected.frame.toList) else (collected.line line, [])

def framesOfLines (lines : List Text) : List SseFrame := (execute readLine .empty lines).2

def terminators : List Text := [[lf], [cr, lf], [cr]]

/-- No part of a terminator. -/
def Clean (line : Text) : Prop := ∀ c ∈ line, c ≠ cr ∧ c ≠ lf

instance (line : Text) : Decidable (Clean line) := List.decidableBAll _ line

def terminated (terminator : Text) (lines : List Text) : Text :=
  (lines.map (· ++ terminator)).flatten

/-- Lines with a terminator before each but the first. -/
def joined (terminator line : Text) (lines : List Text) : Text :=
  line ++ (lines.map (terminator ++ ·)).flatten

theorem terminated_cons (terminator line : Text) (lines : List Text) :
    terminated terminator (line :: lines) = joined terminator line lines ++ terminator := by
  induction lines generalizing line with
  | nil => simp [terminated, joined]
  | cons l lines ih =>
      have hrest : terminated terminator (line :: l :: lines) =
          line ++ (terminator ++ terminated terminator (l :: lines)) := by
        simp [terminated]
      rw [hrest, ih]
      simp [joined]

variable {line : Text}

theorem plain_of_clean (h : Clean line) :
    (∀ c ∈ line, frameDelimiter.Plain c) ∧ ∀ c ∈ line, lineDelimiter.Plain c := by
  constructor
  · intro c hc word hword
    obtain ⟨hcr, hlf⟩ := h c hc
    simp only [frameDelimiter, List.mem_cons, List.not_mem_nil, or_false] at hword
    obtain rfl | rfl | rfl := hword <;> simp [Ne.symm hcr, Ne.symm hlf]
  · intro c hc word hword
    obtain ⟨hcr, hlf⟩ := h c hc
    simp only [lineDelimiter, List.mem_cons, List.not_mem_nil, or_false] at hword
    obtain rfl | rfl | rfl := hword <;> simp [Ne.symm hcr, Ne.symm hlf]

variable {c : UInt16}

/-- A line feed, and a carriage return, that no delimiter goes on from. -/
theorem matchAt_lf (hlf : c ≠ lf) (text : Text) :
    frameDelimiter.matchAt (lf :: c :: text) = none := by
  have hne : cr ≠ lf := by decide
  simp [Delimiters.matchAt_eq_none_iff, frameDelimiter, List.cons_prefix_cons, hne, Ne.symm hlf]

theorem matchAt_cr (hcr : c ≠ cr) (hlf : c ≠ lf) (text : Text) :
    frameDelimiter.matchAt (cr :: c :: text) = none := by
  have hne : lf ≠ cr := by decide
  simp [Delimiters.matchAt_eq_none_iff, frameDelimiter, List.cons_prefix_cons, hne, Ne.symm hcr,
    Ne.symm hlf]

theorem matchAt_crlf (hcr : c ≠ cr) (text : Text) :
    frameDelimiter.matchAt (cr :: lf :: c :: text) = none := by
  have hne : lf ≠ cr := by decide
  simp [Delimiters.matchAt_eq_none_iff, frameDelimiter, List.cons_prefix_cons, hne, Ne.symm hne,
    Ne.symm hcr]

variable {lines : List Text}

section Terminator

variable {terminator : Text} (hterminator : terminator ∈ terminators)
include hterminator

theorem terminator_cases : terminator = [lf] ∨ terminator = [cr, lf] ∨ terminator = [cr] := by
  simpa [terminators] using hterminator

/-- A terminator before a line that is not blank ends no frame. -/
theorem firstMatch_terminator (hc : c ≠ cr ∧ c ≠ lf) (text : Text) :
    frameDelimiter.firstMatch (terminator ++ c :: text) =
      (frameDelimiter.firstMatch (c :: text)).map fun m => (terminator ++ m.1, m.2) := by
  obtain ⟨hcr, hlf⟩ := hc
  rcases terminator_cases hterminator with rfl | rfl | rfl
  · exact Delimiters.firstMatch_cons lf (matchAt_lf hlf text)
  · rw [List.cons_append, List.cons_append, List.nil_append,
      Delimiters.firstMatch_cons cr (matchAt_crlf hcr text),
      Delimiters.firstMatch_cons lf (matchAt_lf hlf text), Option.map_map]
    rfl
  · exact Delimiters.firstMatch_cons cr (matchAt_cr hcr hlf text)

/-- Two of them do. -/
theorem firstMatch_blank (text : Text) :
    frameDelimiter.firstMatch (terminator ++ (terminator ++ text)) = some ([], text) := by
  have hword : terminator ++ terminator ∈ frameDelimiter.words := by
    rcases terminator_cases hterminator with rfl | rfl | rfl <;> decide
  have hmatch := Delimiters.matchAt_of_word stable_frameDelimiter hword text
  rw [← List.append_assoc]
  exact Delimiters.firstMatch_of_matchAt hmatch

/-- The end of a line is cut off, whatever line comes next. -/
theorem firstMatch_line (hc : c ≠ cr ∧ c ≠ lf) (text : Text) :
    lineDelimiter.firstMatch (terminator ++ c :: text) = some ([], c :: text) := by
  have hne : lf ≠ cr := by decide
  refine Delimiters.firstMatch_of_matchAt ?_
  rcases terminator_cases hterminator with rfl | rfl | rfl <;>
    simp [Delimiters.matchAt, lineDelimiter, List.isPrefixOf?, List.findSome?, Ne.symm hne,
      Ne.symm hc.2]

/-- Lines that are not blank hold no delimiter, but for what comes after them. -/
theorem firstMatch_joined (hline : Clean line) (hlines : ∀ l ∈ lines, Clean l ∧ l ≠ [])
    (text : Text) :
    frameDelimiter.firstMatch (joined terminator line lines ++ text) =
      (frameDelimiter.firstMatch text).map fun m => (joined terminator line lines ++ m.1, m.2) := by
  induction lines generalizing line with
  | nil =>
      rw [joined, List.map_nil, List.flatten_nil, List.append_nil]
      exact Delimiters.firstMatch_append_plain (plain_of_clean hline).1
  | cons l lines ih =>
      obtain ⟨⟨hl, hne⟩, hrest⟩ := List.forall_mem_cons.mp hlines
      have hnext := ih hl hrest
      have hjoined : joined terminator line (l :: lines) ++ text =
          line ++ (terminator ++ (joined terminator l lines ++ text)) := by
        simp [joined]
      rw [hjoined, Delimiters.firstMatch_append_plain (plain_of_clean hline).1]
      cases l with
      | nil => exact absurd rfl hne
      | cons c l =>
          have hc := hl c List.mem_cons_self
          have hcons : joined terminator (c :: l) lines ++ text =
              c :: (joined terminator l lines ++ text) := rfl
          rw [hcons, firstMatch_terminator hterminator hc, ← hcons, hnext, Option.map_map,
            Option.map_map]
          refine Option.map_congr fun m _ => ?_
          simp [joined]

/-- Joined lines are split where they were joined. -/
theorem split_joined (hline : Clean line) (hlines : ∀ l ∈ lines, Clean l ∧ l ≠ []) :
    lineDelimiter.split (joined terminator line lines) = line :: lines := by
  induction lines generalizing line with
  | nil =>
      have hnone : lineDelimiter.firstMatch line = none := by
        have hplain : lineDelimiter.firstMatch (line ++ []) = none :=
          Delimiters.firstMatch_append_plain (plain_of_clean hline).2
        rwa [List.append_nil] at hplain
      rw [joined, List.map_nil, List.flatten_nil, List.append_nil, Delimiters.split_of_none hnone]
  | cons l lines ih =>
      obtain ⟨⟨hl, hne⟩, hrest⟩ := List.forall_mem_cons.mp hlines
      cases l with
      | nil => exact absurd rfl hne
      | cons c l =>
          have hmatch : lineDelimiter.firstMatch (joined terminator line ((c :: l) :: lines)) =
              some (line, joined terminator (c :: l) lines) := by
            have hjoined : joined terminator line ((c :: l) :: lines) =
                line ++ (terminator ++ c :: joined terminator l lines) := by
              simp [joined]
            rw [hjoined, Delimiters.firstMatch_append_plain (plain_of_clean hline).2,
              firstMatch_line hterminator (hl c List.mem_cons_self), Option.map_some,
              List.append_nil]
            rfl
          rw [Delimiters.split_of_some hmatch, ih hl hrest]

/-- A stream that ends inside a line, or inside its terminator. -/
theorem firstMatch_unfinished {tail cut : Text} (htail : Clean tail) (hcut : cut <+: terminator)
    (hproper : cut ≠ terminator) :
    frameDelimiter.firstMatch (tail ++ cut) = none ∧
      frameDelimiter.firstMatch (terminator ++ (tail ++ cut)) = none := by
  have hcuts : cut = [] ∨ cut = [cr] ∧ terminator = [cr, lf] := by
    rcases terminator_cases hterminator with rfl | rfl | rfl <;>
      simp only [List.prefix_cons_iff, List.prefix_nil] at hcut <;> grind
  have hnone : frameDelimiter.firstMatch cut = none := by
    rcases hcuts with rfl | ⟨rfl, -⟩ <;> rfl
  have htext : frameDelimiter.firstMatch (tail ++ cut) = none := by
    rw [Delimiters.firstMatch_append_plain (plain_of_clean htail).1, hnone, Option.map_none]
  refine ⟨htext, ?_⟩
  cases tail with
  | nil =>
      rcases hcuts with rfl | ⟨rfl, rfl⟩
      · rcases terminator_cases hterminator with rfl | rfl | rfl <;> rfl
      · rfl
  | cons c tail =>
      rw [List.cons_append] at htext ⊢
      rw [firstMatch_terminator hterminator (htail c List.mem_cons_self), htext, Option.map_none]

theorem parseFrame_joined (hline : Clean line) (hlines : ∀ l ∈ lines, Clean l ∧ l ≠ []) :
    parseFrame (joined terminator line lines) =
      ((line :: lines).foldl Collected.line .empty).frame := by
  rw [parseFrame, split_joined hterminator hline hlines]

end Terminator

/-- Before anything is collected, a blank line is nothing. -/
theorem readLine_empty (line : Text) : readLine .empty line = (Collected.empty.line line, []) := by
  by_cases hline : line = [] <;>
    simp [readLine, hline, Collected.line, Collected.frame, Collected.empty]

theorem execute_readLine (collected : Collected) (h : [] ∉ lines) :
    execute readLine collected lines = (lines.foldl Collected.line collected, []) := by
  induction lines generalizing collected with
  | nil => rfl
  | cons line lines ih =>
      rw [List.mem_cons, not_or] at h
      rw [execute_cons, readLine, if_neg (Ne.symm h.1), ih _ h.2]
      rfl

/-- A blank line that is not the first ends a frame. -/
theorem framesOfLines_blank (line : Text) (h : [] ∉ lines) (rest : List Text) :
    framesOfLines (line :: (lines ++ [] :: rest)) =
      ((line :: lines).foldl Collected.line .empty).frame.toList ++ framesOfLines rest := by
  rw [framesOfLines, execute_cons, readLine_empty, execute_append, execute_readLine _ h,
    execute_cons]
  rfl

theorem framesOfLines_open (line : Text) (h : [] ∉ lines) :
    framesOfLines (line :: lines) = [] := by
  rw [framesOfLines, execute_cons, readLine_empty, execute_readLine _ h]
  rfl

/-- The frames of a stream whose lines all end alike. -/
theorem parse_lines {terminator : Text} (hterminator : terminator ∈ terminators)
    (hlines : ∀ line ∈ lines, Clean line) {tail cut : Text} (htail : Clean tail)
    (hcut : cut <+: terminator) (hproper : cut ≠ terminator) :
    (frameDelimiter.scan (terminated terminator lines ++ (tail ++ cut))).1.filterMap parseFrame =
      framesOfLines lines := by
  obtain ⟨hopen, hended⟩ := firstMatch_unfinished hterminator htail hcut hproper
  induction hn : lines.length using Nat.strong_induction_on generalizing lines with
  | _ n ih =>
      cases lines with
      | nil =>
          show (frameDelimiter.scan (tail ++ cut)).1.filterMap parseFrame = []
          rw [Delimiters.scan_of_none hopen]
          rfl
      | cons line lines =>
          obtain ⟨hline, hrest⟩ := List.forall_mem_cons.mp hlines
          rw [terminated_cons]
          by_cases hblank : [] ∈ lines
          · obtain ⟨before, after, rfl, hbefore⟩ := List.eq_append_cons_of_mem hblank
            have hfull : ∀ l ∈ before, Clean l ∧ l ≠ [] := fun l hl =>
              ⟨hrest l (List.mem_append_left _ hl), fun h => hbefore (h ▸ hl)⟩
            have hafter : ∀ l ∈ after, Clean l := fun l hl =>
              hrest l (List.mem_append_right _ (List.mem_cons_of_mem _ hl))
            have htext : joined terminator line (before ++ [] :: after) ++ terminator =
                joined terminator line before ++
                  (terminator ++ (terminator ++ terminated terminator after)) := by
              have hjoined : joined terminator line (before ++ [] :: after) =
                  joined terminator line before ++ (terminator ++ joined terminator [] after) := by
                simp [joined]
              have hblankLine : terminated terminator ([] :: after) =
                  terminator ++ terminated terminator after := by
                simp [terminated]
              rw [hjoined, ← hblankLine, terminated_cons]
              simp only [List.append_assoc]
            have hmatch : frameDelimiter.firstMatch
                (joined terminator line (before ++ [] :: after) ++ terminator ++ (tail ++ cut)) =
                  some (joined terminator line before,
                    terminated terminator after ++ (tail ++ cut)) := by
              rw [htext, List.append_assoc, List.append_assoc, List.append_assoc,
                firstMatch_joined hterminator hline hfull, firstMatch_blank hterminator,
                Option.map_some, List.append_nil]
            have hshort : after.length < n := by
              rw [← hn]
              simp only [List.length_cons, List.length_append]
              omega
            rw [Delimiters.scan_of_some hmatch, List.filterMap_cons,
              parseFrame_joined hterminator hline hfull, ih _ hshort hafter rfl,
              framesOfLines_blank line hbefore]
            cases ((line :: before).foldl Collected.line .empty).frame <;> rfl
          · have hfull : ∀ l ∈ lines, Clean l ∧ l ≠ [] := fun l hl =>
              ⟨hrest l hl, fun h => hblank (h ▸ hl)⟩
            have hnone : frameDelimiter.firstMatch
                (joined terminator line lines ++ terminator ++ (tail ++ cut)) = none := by
              rw [List.append_assoc, firstMatch_joined hterminator hline hfull, hended,
                Option.map_none]
            rw [Delimiters.scan_of_none hnone, framesOfLines_open line hblank]
            rfl

/-! ## chunks -/

/-- The chunks that a stream comes in do not matter, and a stream whose lines all end alike
reads as its lines do, without the frame that it leaves unfinished. -/
theorem sse_stream :
    (∀ chunks chunks' : List Text, chunks.flatten = chunks'.flatten →
        parseSseStream chunks = parseSseStream chunks') ∧
      ∀ terminator ∈ terminators, ∀ lines : List Text, (∀ line ∈ lines, Clean line) →
        ∀ tail cut : Text, Clean tail → cut <+: terminator → cut ≠ terminator →
          ∀ chunks, chunks.flatten = terminated terminator lines ++ (tail ++ cut) →
            parseSseStream chunks = framesOfLines lines := by
  constructor
  · intro chunks chunks' hsame
    rw [parseSseStream_eq, parseSseStream_eq, hsame]
  · intro terminator hterminator lines hlines tail cut htail hcut hproper chunks htext
    rw [parseSseStream_eq, htext]
    exact parse_lines hterminator hlines htail hcut hproper

namespace Sample

/-- An `id` line, a blank line and the start of another line. -/
def cutInTerminator : List Text :=
  [ascii "id: 1" ++ [cr], lf :: cr :: [], lf :: ascii "da" ++ [cr]]

end Sample

/-- The cuts fall between the two units of a terminator. -/
theorem sse_stream_sample :
    parseSseStream Sample.cutInTerminator = framesOfLines [ascii "id: 1", []] ∧
      parseSseStream Sample.cutInTerminator = parseSseStream [Sample.cutInTerminator.flatten] := by
  obtain ⟨hchunks, hlines⟩ := sse_stream
  refine ⟨?_, hchunks _ _ (by simp)⟩
  exact hlines [cr, lf] (by decide) _ (by decide) (ascii "da") [cr] (by decide) (by decide)
    (by decide) _ (by decide)

end CalledIt.Txline
