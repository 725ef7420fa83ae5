/-
The headers of a response.

libcurl hands over the lines of a response in blocks: a status line, the header
lines and a blank line, and one such block for every interim response and every
redirect in front of the last. `header_callback_complete` says what one line
does, by two facts about its text alone: whether it starts with "HTTP/", which
empties the list, and whether it contains a ':', which appends a pair. The two
tests are independent, so a status line can do both.
-/
import OpenMeteo.HttpBody

set_option autoImplicit false

namespace OpenMeteo

open StringView

/-! ## Blocks of lines -/

/-- A line 'name:value'. -/
structure HeaderLine where
  name : Bytes
  value : Bytes
  no_colon : 58 ∉ name
  not_status : starts_with name (text "HTTP/") = false

def HeaderLine.raw (line : HeaderLine) : Bytes := line.name ++ 58 :: line.value

/-- The header a line stands for. -/
def HeaderLine.header (line : HeaderLine) : Bytes × Bytes := (line.name, trim line.value blanks)

/-- The lines of one response. -/
structure HeaderBlock where
  status : Bytes
  lines : List HeaderLine
  blank : Bytes
  is_status : starts_with status (text "HTTP/") = true
  is_blank : ∀ c ∈ blank, c ∈ blanks

def HeaderBlock.raw (block : HeaderBlock) : List Bytes :=
  block.status :: block.lines.map HeaderLine.raw ++ [block.blank]

/-- The headers a block stands for. -/
def HeaderBlock.headers (block : HeaderBlock) : List (Bytes × Bytes) :=
  block.lines.map HeaderLine.header

/-! ## One line -/

/-- What the text of a line appends. -/
def line_headers (line : Bytes) : List (Bytes × Bytes) :=
  match find line 58 with
  | none => []
  | some colon => [(substr line 0 colon, trim (line.drop (colon + 1)) blanks)]

/-- What a line makes of the headers so far. -/
def add_line (headers : List (Bytes × Bytes)) (line : Bytes) : List (Bytes × Bytes) :=
  (if starts_with line (text "HTTP/") then [] else headers) ++ line_headers line

/-- **One call of `header_callback`** that returns what it was given. -/
theorem header_callback_complete {sink : ResponseSink} {chunk : Chunk}
    (hcomplete : (Callback.header chunk).Complete sink) :
    (header_callback sink chunk).1.response.headers
      = add_line sink.response.headers chunk.data := by
  have hrep : chunk.Representable := by
    -- what a callback returns is a `std::size_t`
    have hlt := ((Callback.header chunk).call sink).2.toNat_lt
    rw [Callback.Complete] at hcomplete
    rw [hcomplete] at hlt
    exact hlt
  have hguard := mt (product_guard chunk).mp (not_not.mpr hrep)
  rw [Callback.Complete, Callback.call, Callback.chunk, ← chunk.holds] at hcomplete
  unfold header_callback at hcomplete ⊢
  rw [if_neg hguard] at hcomplete ⊢
  dsimp only at hcomplete ⊢
  rw [take_bytes hrep] at hcomplete ⊢
  unfold add_line line_headers
  cases hfind : find chunk.data 58 with
  | none => exact (List.append_nil _).symm
  | some colon =>
    rw [hfind] at hcomplete
    dsimp only at hcomplete ⊢
    by_cases halloc : chunk.allocates = true
    · rw [if_pos halloc]
      exact congrArg (fun value => _ ++ [(_, value)]) (substr_eq_trim _ blanks)
    · -- a call that threw returned nothing, but a line with a colon is not empty
      rw [if_neg halloc] at hcomplete
      have hempty : chunk.data = [] := List.eq_nil_of_length_eq_zero hcomplete.symm
      rw [hempty] at hfind
      cases hfind

/-- A callback for the body leaves the headers alone. -/
theorem write_callback_headers (sink : ResponseSink) (chunk : Chunk) :
    (write_callback sink chunk).1.response.headers = sink.response.headers := by
  unfold write_callback
  split
  · rfl
  · dsimp only
    split
    · rfl
    · split <;> rfl

/-- The line a callback was given. -/
def Callback.line : Callback → Option Bytes
  | .header chunk => some chunk.data
  | .write _ => none

/-- **The headers after a sequence of callbacks** depend on its lines alone, by
induction on it. -/
theorem deliver_headers (callbacks : List Callback) :
    ∀ sink : ResponseSink, AllComplete sink callbacks →
      (deliver sink callbacks).response.headers
        = (callbacks.filterMap Callback.line).foldl add_line sink.response.headers := by
  induction callbacks with
  | nil => exact fun _ _ => rfl
  | cons callback rest ih =>
    rintro sink ⟨hcomplete, hrest⟩
    have hbehind := ih _ hrest
    cases callback with
    | header chunk =>
      rw [Callback.call, header_callback_complete hcomplete] at hbehind
      exact hbehind
    | write chunk =>
      rw [Callback.call, write_callback_headers] at hbehind
      exact hbehind

/-! ## Lines of a block -/

theorem add_status {status : Bytes} (hstatus : starts_with status (text "HTTP/") = true)
    (headers : List (Bytes × Bytes)) : add_line headers status = line_headers status := by
  rw [add_line, if_pos hstatus, List.nil_append]

/-- A header line does not start as a status line does: its first ':' is behind
its name, and "HTTP/" has none. -/
theorem raw_not_status (line : HeaderLine) : starts_with line.raw (text "HTTP/") = false := by
  rw [starts_with, Bool.eq_false_iff, ne_eq, List.isPrefixOf_iff_prefix]
  intro hprefix
  have hnot := line.not_status
  rw [starts_with, Bool.eq_false_iff, ne_eq, List.isPrefixOf_iff_prefix] at hnot
  rw [HeaderLine.raw] at hprefix
  rcases List.prefix_or_prefix_of_prefix hprefix (List.prefix_append line.name _) with hname | hshort
  · exact hnot hname
  · obtain ⟨_ | ⟨c, behind⟩, hname⟩ := hshort
    · rw [List.append_nil] at hname
      exact hnot (hname ▸ List.prefix_refl _)
    · rw [← hname, List.prefix_append_right_inj, List.cons_prefix_cons] at hprefix
      have hcolon : (58 : UInt8) ∈ text "HTTP/" := by
        rw [← hname, ← hprefix.1]
        exact List.mem_append_right _ (List.mem_cons_self ..)
      exact absurd hcolon (by decide)

theorem add_header_line (line : HeaderLine) (headers : List (Bytes × Bytes)) :
    add_line headers line.raw = headers ++ [line.header] := by
  have hfind : find line.raw 58 = some line.name.length := find_append line.no_colon _
  rw [add_line, raw_not_status, line_headers, hfind]
  dsimp only
  have hname : substr line.raw 0 line.name.length = line.name := List.take_left
  have hvalue : line.raw.drop (line.name.length + 1) = line.value := by
    rw [HeaderLine.raw, ← List.drop_drop, List.drop_left]
    rfl
  rw [hname, hvalue]
  rfl

/-- A blank line adds nothing. -/
theorem add_blank {blank : Bytes} (hblank : ∀ c ∈ blank, c ∈ blanks)
    (headers : List (Bytes × Bytes)) : add_line headers blank = headers := by
  have hnot : starts_with blank (text "HTTP/") = false := by
    rw [starts_with, Bool.eq_false_iff, ne_eq, List.isPrefixOf_iff_prefix]
    rintro ⟨rest, rfl⟩
    exact absurd (hblank 72 (List.mem_cons_self ..)) (by decide)
  have hfind : find blank 58 = none := find_eq_none.mpr fun hc => absurd (hblank 58 hc) (by decide)
  rw [add_line, hnot, line_headers, hfind]
  exact List.append_nil headers

/-- **One block**: whatever was there is dropped, and what the status line itself
appends stands before the headers of the block. -/
theorem add_block (block : HeaderBlock) (headers : List (Bytes × Bytes)) :
    block.raw.foldl add_line headers = line_headers block.status ++ block.headers := by
  have hlines : ∀ (lines : List HeaderLine) (start : List (Bytes × Bytes)),
      (lines.map HeaderLine.raw).foldl add_line start = start ++ lines.map HeaderLine.header := by
    intro lines
    induction lines with
    | nil => exact fun start => (List.append_nil start).symm
    | cons line rest ih =>
      intro start
      rw [List.map_cons, List.foldl_cons, add_header_line, ih, List.append_assoc]
      rfl
  simp only [HeaderBlock.raw, List.foldl_append, List.foldl_cons, List.foldl_nil]
  rw [add_status block.is_status, hlines, add_blank block.is_blank]
  rfl

/-! ## The final response -/

theorem line_headers_eq_nil {line : Bytes} : line_headers line = [] ↔ 58 ∉ line := by
  rw [← find_eq_none, line_headers]
  cases find line 58 with
  | none => exact ⟨fun _ => rfl, fun _ => rfl⟩
  | some colon => exact ⟨fun h => (by cases h), fun h => (by cases h)⟩

/-- **When the response headers are those of the final response.** After blocks
of lines that were all taken in, the list is the headers of the last block
exactly when its status line contains no ':'; the blocks before it never count. -/
theorem headers_of_final_response (sink : ResponseSink) (earlier : List HeaderBlock)
    (last : HeaderBlock) (callbacks : List Callback) (hcomplete : AllComplete sink callbacks)
    (hlines : callbacks.filterMap Callback.line
      = (earlier ++ [last]).flatMap HeaderBlock.raw) :
    (deliver sink callbacks).response.headers = last.headers ↔ 58 ∉ last.status := by
  rw [deliver_headers callbacks sink hcomplete, hlines, List.flatMap_append, List.foldl_append,
    List.flatMap_cons, List.flatMap_nil, List.append_nil, add_block, ← line_headers_eq_nil]
  constructor
  · intro heq
    have hlength := congrArg List.length heq
    rw [List.length_append] at hlength
    exact List.eq_nil_of_length_eq_zero (by omega)
  · intro hnil
    rw [hnil, List.nil_append]

/-- The lines of one response with one header, and a status line of one's choice. -/
def HeaderBlock.plain (status : Bytes) (h : starts_with status (text "HTTP/") = true) :
    HeaderBlock where
  status := status
  lines := [⟨text "Age", text " 1\r\n", by decide, by decide⟩]
  blank := text "\r\n"
  is_status := h
  is_blank := by simp [text, blanks]

/-- A redirect with a ':' in its reason phrase, and a final response without one. -/
def redirected : List Callback :=
  [.header (Chunk.of (text "HTTP/1.1 301 Moved: away\r\n") (by decide)),
    .header (Chunk.of (text "Age: 1\r\n") (by decide)),
    .header (Chunk.of (text "\r\n") (by decide)),
    .header (Chunk.of (text "HTTP/1.1 200 OK\r\n") (by decide)),
    .header (Chunk.of (text "Age: 1\r\n") (by decide)),
    .header (Chunk.of (text "\r\n") (by decide))]

theorem headers_of_final_response_redirected :
    (deliver { limit := 0 } redirected).response.headers = [(text "Age", text "1")] :=
  (headers_of_final_response { limit := 0 }
    [HeaderBlock.plain (text "HTTP/1.1 301 Moved: away\r\n") (by decide)]
    (HeaderBlock.plain (text "HTTP/1.1 200 OK\r\n") (by decide)) redirected
    ⟨rfl, rfl, rfl, rfl, rfl, rfl, trivial⟩ rfl).mpr (by decide)

/-- A final response with a ':' in its reason phrase. -/
def reason_with_colon : List Callback :=
  [.header (Chunk.of (text "HTTP/1.1 200 OK: cached\r\n") (by decide)),
    .header (Chunk.of (text "Age: 1\r\n") (by decide)),
    .header (Chunk.of (text "\r\n") (by decide))]

/-- Its status line becomes a header. -/
theorem status_line_becomes_header :
    ¬ ∀ (sink : ResponseSink) (earlier : List HeaderBlock) (last : HeaderBlock)
        (callbacks : List Callback), AllComplete sink callbacks →
      callbacks.filterMap Callback.line = (earlier ++ [last]).flatMap HeaderBlock.raw →
      (deliver sink callbacks).response.headers = last.headers := by
  intro h
  have hheaders := h { limit := 0 } []
    (HeaderBlock.plain (text "HTTP/1.1 200 OK: cached\r\n") (by decide)) reason_with_colon
    ⟨rfl, rfl, rfl, trivial⟩ rfl
  exact absurd hheaders (by decide)

end OpenMeteo
