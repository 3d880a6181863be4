import MagicLaw.Lib.Text

/-!
# The lines of a text

`str::lines`: a line ends with a newline, which may have a carriage return
before it, or with the text.

`lines_terminated`: the lines that were written, each with one of the two
endings, are read back.
-/

namespace Lib.TextLines

/-- A line without the carriage return at its end. -/
def stripReturn (line : List Char) : List Char :=
  if line.getLast? = some '\r' then line.dropLast else line

/-- The loop over the letters, with the line that is read so far. -/
def linesLoop (line : List Char) : List Char → List (List Char)
  | [] => if line = [] then [] else [line]
  | c :: cs =>
    if c = '\n' then stripReturn line :: linesLoop [] cs else linesLoop (line ++ [c]) cs

def lines (text : String) : List String := (linesLoop [] text.toList).map String.ofList

/-- The two endings of a line. -/
inductive LineEnd where
  | newline | returnNewline

def LineEnd.letters : LineEnd → List Char
  | .newline => ['\n']
  | .returnNewline => ['\r', '\n']

/-- The lines as a text, each with the ending. -/
def terminated (eol : LineEnd) (ls : List String) : String :=
  String.ofList (ls.flatMap fun line => line.toList ++ eol.letters)

/-- A text that is one line, also with a newline after it. -/
structure IsLine (line : String) : Prop where
  newline : '\n' ∉ line.toList
  return_last : line.toList.getLast? ≠ some '\r'

theorem linesLoop_newline (line rest : List Char) {letters : List Char} (h : '\n' ∉ letters) :
    linesLoop line (letters ++ '\n' :: rest) = stripReturn (line ++ letters) :: linesLoop [] rest := by
  induction letters generalizing line with
  | nil => rw [List.nil_append, List.append_nil, linesLoop, if_pos rfl]
  | cons c letters ih =>
    rw [List.mem_cons, not_or] at h
    rw [List.cons_append, linesLoop, if_neg (Ne.symm h.1), ih _ h.2, List.append_assoc,
      List.singleton_append]

/-- A line with its ending is read first, and the rest after it. -/
theorem linesLoop_line {line : String} (h : IsLine line) (eol : LineEnd) (rest : List Char) :
    linesLoop [] (line.toList ++ eol.letters ++ rest) = line.toList :: linesLoop [] rest := by
  cases eol with
  | newline =>
    show linesLoop [] (line.toList ++ ['\n'] ++ rest) = _
    rw [List.append_assoc, List.singleton_append, linesLoop_newline [] rest h.newline,
      List.nil_append, stripReturn, if_neg h.return_last]
  | returnNewline =>
    have hletters : '\n' ∉ line.toList ++ ['\r'] := by
      rw [List.mem_append, not_or]
      exact ⟨h.newline, by decide⟩
    have hparts : line.toList ++ LineEnd.returnNewline.letters ++ rest =
        line.toList ++ ['\r'] ++ '\n' :: rest := by
      simp [LineEnd.letters]
    rw [hparts, linesLoop_newline [] rest hletters, List.nil_append, stripReturn,
      List.getLast?_concat, if_pos rfl, List.dropLast_concat]

theorem lines_terminated (eol : LineEnd) {ls : List String} (h : ∀ line ∈ ls, IsLine line) :
    lines (terminated eol ls) = ls := by
  have hloop : linesLoop [] (ls.flatMap fun line => line.toList ++ eol.letters) =
      ls.map String.toList := by
    induction ls with
    | nil => rfl
    | cons line ls ih =>
      rw [List.forall_mem_cons] at h
      rw [List.flatMap_cons, linesLoop_line h.1, ih h.2, List.map_cons]
  unfold lines terminated
  rw [String.toList_ofList, hloop, List.map_map]
  exact (List.map_congr_left fun line _ => String.ofList_toList).trans (List.map_id ls)

end Lib.TextLines
