import Telemetry.Proofs.Summary.History
import Telemetry.Proofs.Text.Lines
import Telemetry.Proofs.Time.Texts

/-! The rows of a report.
A row has at most 250 characters. It begins with the stamp of its moment, or with as many
blanks where it goes on with the row before it. A stamp never begins with a blank, so the lines
of a message can be read off its rows again: nothing is lost but empty lines. -/
namespace Telemetry.Summary

section Stamp

variable {at_ : Instant}

theorem length_stamp_le (dated : at_.Dated) : (stamp at_).toList.length ≤ 31 := by
  have text := Instant.length_logText_le dated
  have bar : "  |  ".length = 5 := by decide
  rw [String.length_toList, stamp, String.length_append]
  omega

theorem stamp_narrow (dated : at_.Dated) : (stamp at_).toList.length < rowWidth :=
  Nat.lt_of_le_of_lt (length_stamp_le dated) (by decide)

theorem feed_not_mem_stamp (at_ : Instant) : '\n' ∉ (stamp at_).toList := by
  rw [stamp, String.toList_append]
  exact List.not_mem_append at_.feed_not_mem_logText (by decide)

theorem utf8ByteSize_stamp (at_ : Instant) : (stamp at_).utf8ByteSize = (stamp at_).length := by
  have bar : "  |  ".utf8ByteSize = "  |  ".length := by decide
  rw [stamp, String.utf8ByteSize_append, at_.utf8ByteSize_logText, bar, String.length_append]

/-- There are characters, and the first one is no blank. -/
def IsVisible (cs : List Char) : Prop :=
  ∃ first rest, cs = first :: rest ∧ first ≠ ' '

theorem isVisible_stamp (at_ : Instant) : IsVisible (stamp at_).toList := by
  obtain ⟨first, rest, text, visible⟩ := at_.logText_start
  refine ⟨first, rest ++ "  |  ".toList, ?_, visible⟩
  rw [stamp, String.toList_append, text, List.cons_append]

end Stamp

/-- What rows tell, where a row that begins with the stamp begins a line, and any other goes on
with the line of the row before it: what goes on with a line before the first row, and the lines
that begin with a row. -/
def readRows (stamp : List Char) : List (List Char) → List Char × List (List Char)
  | [] => ([], [])
  | row :: rows =>
    let piece := row.drop stamp.length
    let behind := readRows stamp rows
    if stamp <+: row then ([], (piece ++ behind.1) :: behind.2) else (piece ++ behind.1, behind.2)

section Reading

variable {stamp : List Char}

theorem readRows_stamped (piece : List Char) (rows : List (List Char)) :
    readRows stamp ((stamp ++ piece) :: rows) =
      ([], (piece ++ (readRows stamp rows).1) :: (readRows stamp rows).2) := by
  rw [readRows, if_pos (List.prefix_append _ _), List.drop_left]

theorem blanks_unstamped (visible : IsVisible stamp) (piece : List Char) :
    ¬ stamp <+: List.replicate stamp.length ' ' ++ piece := by
  obtain ⟨first, rest, rfl, visible⟩ := visible
  intro stamped
  -- The first characters would have to agree, and only one of them is a blank.
  rw [List.length_cons, List.replicate_succ, List.cons_append] at stamped
  exact visible (List.cons_prefix_cons.mp stamped).1

theorem readRows_continued (visible : IsVisible stamp) (pieces rows : List (List Char)) :
    readRows stamp ((pieces.map fun piece => List.replicate stamp.length ' ' ++ piece) ++ rows) =
      (pieces.flatten ++ (readRows stamp rows).1, (readRows stamp rows).2) := by
  induction pieces with
  | nil => rfl
  | cons piece pieces ih =>
    have behind : (List.replicate stamp.length ' ' ++ piece).drop stamp.length = piece :=
      List.drop_left' List.length_replicate
    rw [List.map_cons, List.cons_append, readRows, if_neg (blanks_unstamped visible piece),
      ih, behind, List.flatten_cons, List.append_assoc]

theorem readRows_lineRows (visible : IsVisible stamp) (narrow : stamp.length < rowWidth)
    {line : List Char} (filled : line ≠ []) {rows lines : List (List Char)}
    (behind : readRows stamp rows = ([], lines)) :
    readRows stamp (lineRows stamp line ++ rows) = ([], line :: lines) := by
  obtain ⟨whole, _, _, inhabited, _⟩ := Text.isCut_chunks (Nat.sub_pos_of_lt narrow) filled
  obtain ⟨piece, pieces, cut⟩ := List.exists_cons_of_ne_nil inhabited
  rw [cut, List.flatten_cons] at whole
  rw [lineRows, cut]
  simp only [List.cons_append]
  rw [readRows_stamped, readRows_continued visible, behind, List.append_nil, whole]

/-- Of the rows of lines all lines can be read that are not empty. -/
theorem readRows_lines (visible : IsVisible stamp) (narrow : stamp.length < rowWidth)
    (lines : List (List Char)) :
    readRows stamp (lines.flatMap (lineRows stamp)) = ([], lines.filter (· ≠ [])) := by
  induction lines with
  | nil => rfl
  | cons line lines ih =>
    by_cases filled : line = []
    · have nothing : lineRows stamp line = [] := by
        rw [filled, lineRows, Text.chunks_nil]
      rw [List.flatMap_cons, nothing, List.nil_append, ih, filled]
      rfl
    · rw [List.flatMap_cons, readRows_lineRows visible narrow filled ih,
        List.filter_cons_of_pos (by simpa using filled)]

end Reading

/-- A row of a message: it has no line feed, it is short, and it begins with the stamp or with
as many blanks. -/
structure IsRow (stamp : List Char) (row : List Char) : Prop where
  one : '\n' ∉ row
  short : row.length ≤ 250
  starts : stamp <+: row ∨ List.replicate stamp.length ' ' <+: row

/-- A piece behind the stamp or behind as many blanks is a row, if there is room for it. -/
theorem isRow_append {stamp front piece : List Char} (oneStamp : '\n' ∉ stamp)
    (starts : front = stamp ∨ front = List.replicate stamp.length ' ') (onePiece : '\n' ∉ piece)
    (fits : stamp.length + piece.length ≤ 250) : IsRow stamp (front ++ piece) := by
  rcases starts with rfl | rfl
  · refine ⟨List.not_mem_append oneStamp onePiece, ?_, .inl (List.prefix_append _ _)⟩
    rwa [List.length_append]
  · have oneBlanks : '\n' ∉ List.replicate stamp.length ' ' := by
      intro feed
      cases List.eq_of_mem_replicate feed
    refine ⟨List.not_mem_append oneBlanks onePiece, ?_, .inr (List.prefix_append _ _)⟩
    rwa [List.length_append, List.length_replicate]

theorem mem_lineRows {stamp line row : List Char} (member : row ∈ lineRows stamp line) :
    ∃ front piece, row = front ++ piece ∧ piece ∈ Text.chunks (rowWidth - stamp.length) line ∧
      (front = stamp ∨ front = List.replicate stamp.length ' ') := by
  rw [lineRows] at member
  split at member
  · cases member
  · rename_i first pieces cut
    rw [cut]
    rcases List.mem_cons.mp member with rfl | member
    · exact ⟨stamp, first, rfl, List.mem_cons_self, .inl rfl⟩
    · obtain ⟨piece, listed, rfl⟩ := List.mem_map.mp member
      exact ⟨_, piece, rfl, List.mem_cons_of_mem _ listed, .inr rfl⟩

theorem isRow_lineRows {stamp line : List Char} (oneStamp : '\n' ∉ stamp) (oneLine : '\n' ∉ line)
    (narrow : stamp.length < rowWidth) : ∀ row ∈ lineRows stamp line, IsRow stamp row := by
  intro row member
  obtain ⟨front, piece, rfl, member, starts⟩ := mem_lineRows member
  have filled : line ≠ [] := by
    rintro rfl
    rw [Text.chunks_nil] at member
    cases member
  have cut := Text.isCut_chunks (Nat.sub_pos_of_lt narrow) filled
  have onePiece : '\n' ∉ piece := by
    intro feed
    apply oneLine
    rw [← cut.whole]
    exact List.mem_flatten.mpr ⟨piece, member, feed⟩
  have limit : piece.length ≤ 250 - stamp.length := cut.short piece member
  have bound : stamp.length < 250 := narrow
  exact isRow_append oneStamp starts onePiece (by omega)

theorem isRow_messageRows {at_ : Instant} (dated : at_.Dated) (message : String) :
    ∀ row ∈ messageRows at_ message, IsRow (stamp at_).toList row := by
  intro row member
  obtain ⟨line, ofMessage, member⟩ := List.mem_flatMap.mp member
  have oneLine := (Text.hasLines_linesList message.toList).one line ofMessage
  exact isRow_lineRows (feed_not_mem_stamp at_) oneLine (stamp_narrow dated) row member

/-- The rows of an item, of which a blank one is empty. -/
def Item.rows (at_ : Instant) : Item → List (List Char)
  | .blank => [[]]
  | .line message => messageRows at_ message

def blockRows (at_ : Instant) (items : List Item) : List (List Char) :=
  items.flatMap (Item.rows at_)

theorem Item.toList_text (at_ : Instant) (item : Item) :
    (item.text at_).toList = (item.rows at_).flatMap (· ++ ['\n']) := by
  cases item with
  | blank => exact String.toList_ofList (l := ['\n'])
  | line message => exact String.toList_ofList

theorem toList_blockText (at_ : Instant) (items : List Item) :
    (blockText at_ items).toList = (blockRows at_ items).flatMap (· ++ ['\n']) := by
  induction items with
  | nil => rfl
  | cons item items ih =>
    have text : blockText at_ (item :: items) = item.text at_ ++ blockText at_ items := by
      rw [blockText, List.map_cons, String.join_cons, blockText]
    have rows : blockRows at_ (item :: items) = item.rows at_ ++ blockRows at_ items :=
      List.flatMap_cons
    rw [text, rows, String.toList_append, item.toList_text, ih, List.flatMap_append]

/-- A row of a block is empty or a row of a message, so it is short and has no line feed. -/
theorem blockRows_short {at_ : Instant} (dated : at_.Dated) (items : List Item) :
    ∀ row ∈ blockRows at_ items, '\n' ∉ row ∧ row.length ≤ 250 := by
  intro row member
  obtain ⟨item, _, member⟩ := List.mem_flatMap.mp member
  cases item with
  | blank =>
    rw [List.mem_singleton.mp member]
    exact ⟨List.not_mem_nil, Nat.zero_le _⟩
  | line message =>
    have row := isRow_messageRows dated message row member
    exact ⟨row.one, row.short⟩

theorem splitFeeds_blockText {at_ : Instant} (dated : at_.Dated) (items : List Item) :
    Text.splitFeeds (blockText at_ items).toList = blockRows at_ items ++ [[]] := by
  rw [toList_blockText]
  exact Text.splitFeeds_rows fun row member => (blockRows_short dated items row member).1

def historyRows (history : List Occurrence) : List (List Char) :=
  (sections history).flatMap fun s => blockRows s.cause.moment s.items

theorem toList_text_ofHistory (history : List Occurrence) :
    (Report.ofHistory history).text.toList = (historyRows history).flatMap (· ++ ['\n']) := by
  rw [(sections_spec history).2, historyRows]
  induction sections history with
  | nil => rfl
  | cons s rest ih =>
    rw [List.map_cons, String.join_cons, String.toList_append, ih, Section.text, toList_blockText,
      List.flatMap_cons, List.flatMap_append]

theorem historyRows_short {history : List Occurrence} (dated : ∀ x ∈ history, x.moment.Dated) :
    ∀ row ∈ historyRows history, '\n' ∉ row ∧ row.length ≤ 250 := by
  intro row member
  obtain ⟨s, listed, member⟩ := List.mem_flatMap.mp member
  have cause : s.cause ∈ history := by
    rw [← (sections_spec history).1]
    exact List.mem_map_of_mem listed
  exact blockRows_short (dated s.cause cause) s.items row member

/-- Whatever a message says and whatever text there is: the message is only added to it, in rows
that are ended by line feeds. Each row has at most 250 characters and begins with the stamp or
with as many blanks, be they counted as its bytes or as its characters. The lines that can be read
off the rows are those of the message, in order and without the empty ones. And all rows of a
report are short, whatever its events are. -/
theorem rows_short_and_readable {at_ : Instant} (dated : at_.Dated) (text message : String)
    {history : List Occurrence} (moments : ∀ x ∈ history, x.moment.Dated) :
    (stamp at_).utf8ByteSize = (stamp at_).length ∧
    (∃ (added : String) (rows lines : List (List Char)),
      appendMessage text message at_ = text ++ added ∧
      Text.splitFeeds added.toList = rows ++ [[]] ∧
      (∀ row ∈ rows, row.length ≤ 250 ∧ ((stamp at_).toList <+: row ∨
        List.replicate (stamp at_).length ' ' <+: row)) ∧
      Text.HasLines message.toList lines ∧
      readRows (stamp at_).toList rows = ([], lines.filter (· ≠ []))) ∧
    ∀ row ∈ Text.splitFeeds (Report.ofHistory history).text.toList, row.length ≤ 250 := by
  refine ⟨utf8ByteSize_stamp at_, ?_, ?_⟩
  · have rows := isRow_messageRows dated message
    refine ⟨messageText at_ message, messageRows at_ message, Text.linesList message.toList, rfl,
      ?_, fun row member => ?_, Text.hasLines_linesList _, ?_⟩
    · rw [messageText, String.toList_ofList]
      exact Text.splitFeeds_rows fun row member => (rows row member).one
    · obtain ⟨_, short, starts⟩ := rows row member
      rw [String.length_toList] at starts
      exact ⟨short, starts⟩
    · exact readRows_lines (isVisible_stamp at_) (stamp_narrow dated) _
  · have rows := historyRows_short moments
    rw [toList_text_ofHistory, Text.splitFeeds_rows fun row member => (rows row member).1]
    intro row member
    rcases List.mem_append.mp member with inside | behind
    · exact (rows row inside).2
    · rw [List.mem_singleton.mp behind]
      exact Nat.zero_le _

/-- A line that is too long for one row, an empty line and a short one. -/
theorem rows_readable_of_long_line :
    let at_ : Instant := ⟨1709993107, 123456789⟩
    let long := List.replicate 225 'x'
    let message := String.ofList (long ++ "\r\n\nend".toList)
    let x : Occurrence := ⟨.ofCategory .error "Broken", .ofActivity .nil, at_⟩
    at_.Dated ∧ (∀ y ∈ [x], y.moment.Dated) ∧
      (∃ rows, Text.splitFeeds (appendMessage "" message at_).toList = rows ++ [[]] ∧
        readRows (stamp at_).toList rows = ([], [long, "end".toList])) ∧
      ∀ row ∈ Text.splitFeeds (Report.ofHistory [x]).text.toList, row.length ≤ 250 := by
  intro at_ long message x
  have dated : at_.Dated := ⟨by decide, by decide⟩
  have moments : ∀ y ∈ [x], y.moment.Dated := List.forall_mem_singleton.mpr dated
  obtain ⟨_, ⟨added, rows, lines, text, split, _, has, read⟩, short⟩ :=
    rows_short_and_readable dated "" message moments
  have found : lines = [long, [], "end".toList] := by
    rw [Text.hasLines_iff.mp has, String.toList_ofList]
    decide +kernel
  refine ⟨dated, moments, ⟨rows, ?_, ?_⟩, short⟩
  · rw [text, String.empty_append, split]
  · rw [read, found]
    rfl

end Telemetry.Summary
