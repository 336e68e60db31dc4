import Scribe.Prompt.LineInput
import Scribe.Text.Space

/-!
# Line editor

One line of text with a cursor between its characters, and the keys that change it.
-/

namespace Scribe

open LineInput

structure LineEditor where
  text : List Char
  /-- Number of characters before the cursor. -/
  cursor : Nat
  isPlain_of_mem : ∀ c ∈ text, isPlain c = true
  length_text_le : text.length ≤ capacity
  cursor_le : cursor ≤ text.length

namespace LineEditor

/-- What is kept of a text: line ends and tabs become spaces, other control characters and
malformed bytes are dropped. -/
def sanitize (cs : List Char) : List Char :=
  cs.filterMap fun c =>
    if c = '\n' || c = '\r' || c = '\t' then some ' ' else if isPlain c then some c else none

theorem isPlain_of_mem_sanitize {cs : List Char} : ∀ c ∈ sanitize cs, isPlain c = true := by
  intro c hc
  obtain ⟨d, -, hd⟩ := List.mem_filterMap.mp hc
  split at hd
  · cases hd
    decide
  · split at hd
    · next hplain =>
        cases hd
        exact hplain
    · cases hd

def bytes (e : LineEditor) : Bytes := Bytes.ofChars e.text

def blank : LineEditor :=
  { text := []
    cursor := 0
    isPlain_of_mem := fun _ hc => absurd hc List.not_mem_nil
    length_text_le := Nat.zero_le _
    cursor_le := Nat.le_refl 0 }

def moveTo (e : LineEditor) (cursor : Nat) : LineEditor :=
  { e with cursor := min cursor e.text.length, cursor_le := Nat.min_le_right .. }

/-- Puts another text in place. The cursor stays, but goes to the end of a line that was empty,
and never beyond the end. -/
def setBytes (e : LineEditor) (text : Bytes) : LineEditor :=
  let kept := (sanitize text.chars).take capacity
  let atEnd := (e.cursor = 0 && e.text.isEmpty) || kept.length < e.cursor
  { text := kept
    cursor := if atEnd then kept.length else e.cursor
    isPlain_of_mem := fun c hc => isPlain_of_mem_sanitize c (List.mem_of_mem_take hc)
    length_text_le := List.length_take_le ..
    cursor_le := by
      split
      · exact Nat.le_refl _
      · next hinside =>
          rw [Bool.or_eq_true, not_or, decide_eq_true_eq] at hinside
          exact Nat.not_lt.mp hinside.2 }

def front (e : LineEditor) : List Char := e.text.take e.cursor

def back (e : LineEditor) : List Char := e.text.drop e.cursor

theorem front_append_back (e : LineEditor) : e.front ++ e.back = e.text := List.take_append_drop ..

/-- Inserts characters at the cursor, as many as there is room for. -/
def insert (e : LineEditor) (cs : List Char) : LineEditor :=
  let added := (sanitize cs).take (capacity - e.text.length)
  have hlength : (e.front ++ added ++ e.back).length = e.text.length + added.length := by
    rw [← e.front_append_back, List.length_append, List.length_append, List.length_append]
    omega
  { text := e.front ++ added ++ e.back
    cursor := e.cursor + added.length
    isPlain_of_mem := by
      intro c hc
      rcases List.mem_append.mp hc with hc | hc
      · rcases List.mem_append.mp hc with hc | hc
        · exact e.isPlain_of_mem c (List.mem_of_mem_take hc)
        · exact isPlain_of_mem_sanitize c (List.mem_of_mem_take hc)
      · exact e.isPlain_of_mem c (List.mem_of_mem_drop hc)
    length_text_le := by
      have hadded : added.length ≤ capacity - e.text.length := List.length_take_le ..
      have hroom := e.length_text_le
      omega
    cursor_le := by
      have hinside := e.cursor_le
      omega }

def keep (e : LineEditor) (front back : List Char) (hfront : front.Sublist e.front)
    (hback : back.Sublist e.back) : LineEditor :=
  have hkept : (front ++ back).Sublist e.text := e.front_append_back ▸ hfront.append hback
  { text := front ++ back
    cursor := front.length
    isPlain_of_mem := fun c hc => e.isPlain_of_mem c (hkept.mem hc)
    length_text_le := Nat.le_trans hkept.length_le e.length_text_le
    cursor_le := by simp }

/-- Reading backwards from the cursor: white space is skipped, but never the first character of
the line. -/
def skipSpaces : List Char → List Char
  | c :: d :: rest => if isSpace c then skipSpaces (d :: rest) else c :: d :: rest
  | cs => cs

theorem skipSpaces_sublist (cs : List Char) : (skipSpaces cs).Sublist cs := by
  fun_induction skipSpaces cs with
  | case1 c d rest _ ih => exact ih.cons c
  | case2 => exact List.Sublist.refl _
  | case3 => exact List.Sublist.refl _

/-- Reading backwards: what stands before a word. The first character of the line belongs to the
word in any case. -/
def skipWord : List Char → List Char
  | c :: d :: rest => if isSpace c then c :: d :: rest else skipWord (d :: rest)
  | _ => []

theorem skipWord_sublist (cs : List Char) : (skipWord cs).Sublist cs := by
  fun_induction skipWord cs with
  | case1 => exact List.Sublist.refl _
  | case2 c d rest _ ih => exact ih.cons c
  | case3 => exact List.nil_sublist _

/-- Reading away from the cursor: what is left behind white space and the word that follows it. -/
def passWord (cs : List Char) : List Char := (cs.dropWhile isSpace).dropWhile (!isSpace ·)

/-- Reading forwards from the cursor: what is left when a word is deleted. The first character
goes in any case, then white space, then a word. -/
def dropWord (cs : List Char) : List Char := passWord (cs.drop 1)

theorem dropWord_sublist (cs : List Char) : (dropWord cs).Sublist cs :=
  ((List.dropWhile_sublist _).trans (List.dropWhile_sublist _)).trans (List.drop_sublist 1 cs)

/-- The names of keys with the changes that they stand for. A text that is fetched from the
clipboard does not come with its key. -/
def keys : List (String × LineInput.Command) :=
  [("ctrl+w", .deleteWord), ("alt+backspace", .deleteWord),
    ("alt+delete", .deleteNextWord), ("alt+d", .deleteNextWord),
    ("alt+left", .wordLeft), ("ctrl+left", .wordLeft), ("alt+b", .wordLeft),
    ("alt+right", .wordRight), ("ctrl+right", .wordRight), ("alt+f", .wordRight),
    ("backspace", .deleteBack), ("ctrl+h", .deleteBack),
    ("left", .left), ("ctrl+b", .left), ("right", .right), ("ctrl+f", .right),
    ("home", .start), ("ctrl+a", .start), ("end", .finish), ("ctrl+e", .finish),
    ("delete", .deleteForward), ("ctrl+d", .deleteForward),
    ("ctrl+k", .deleteToEnd), ("ctrl+u", .deleteToStart),
    ("down", .nothing), ("ctrl+n", .nothing), ("up", .nothing), ("ctrl+p", .nothing),
    ("ctrl+v", .nothing)]

def apply (e : LineEditor) : LineInput.Command → LineEditor
  | .left => e.moveTo (e.cursor - 1)
  | .right => e.moveTo (e.cursor + 1)
  | .wordLeft => e.moveTo (passWord e.front.reverse).length
  | .wordRight => e.moveTo (e.text.length - (passWord e.back).length)
  | .start => e.moveTo 0
  | .finish => e.moveTo e.text.length
  | .deleteBack => e.keep e.front.dropLast e.back (List.dropLast_sublist _) (List.Sublist.refl _)
  | .deleteForward =>
      e.keep e.front (e.back.drop 1) (List.Sublist.refl _) (List.drop_sublist 1 e.back)
  | .deleteWord =>
      let before := skipWord (skipSpaces e.front.reverse)
      have hbefore : before.reverse.Sublist e.front := by
        rw [← List.reverse_sublist, List.reverse_reverse]
        exact (skipWord_sublist _).trans (skipSpaces_sublist _)
      e.keep before.reverse e.back hbefore (List.Sublist.refl _)
  | .deleteNextWord =>
      e.keep e.front (dropWord e.back) (List.Sublist.refl _) (dropWord_sublist e.back)
  | .deleteToEnd => e.keep e.front [] (List.Sublist.refl _) (List.nil_sublist _)
  | .deleteToStart => e.keep [] e.back (List.nil_sublist _) (List.Sublist.refl _)
  | .nothing => e

/-- A key press, by its name. Text that is typed at once is its own name; what is no name of a
key is inserted. -/
def press (e : LineEditor) (cs : List Char) : LineEditor :=
  match keys.find? (·.1.toList == cs) with
  | some (_, command) => e.apply command
  | none => e.insert cs

instance : LineInput LineEditor where
  blank := blank
  text := text
  cursor := cursor
  setBytes := setBytes
  moveTo := moveTo
  press := press
  apply := apply

end LineEditor

end Scribe
