import Mathlib.Tactic

/-! # The lines of a prompt

A response of the form `// action:` followed by one of the prompt actions. Texts
are lists of bytes, written as characters; `none` is the exception of a substring
that starts behind the end of its text.
-/
namespace PowerScreen.Prompt

abbrev Text := List Char

inductive Action where
  | begin (header : Text)
  | text (text : Text)
  | groupStart
  | groupEnd
  | button (footer : Bool) (label command type : Text)
  | show
  | end
  | unsupported
deriving DecidableEq

/-- `substr` to the end of the text. -/
def substrFrom (s : Text) (pos : ℕ) : Option Text :=
  if pos ≤ s.length then some (s.drop pos) else none

/-- Position of the first bar at or after `pos`, -1 when there is none. -/
def findBar (s : Text) (pos : ℕ) : ℤ :=
  let i := (s.drop pos).findIdx (· = '|')
  if i < (s.drop pos).length then (pos + i : ℕ) else -1

/-- Leading blanks go, unless there is nothing else. -/
def trimLeft (s : Text) : Text :=
  let t := s.dropWhile fun c => c = ' ' || c = '\t'
  if t = [] then s else t

/-- The label starts right behind the word `button`; without a bar the whole command
is taken for the button's command. -/
def parseButton (footer : Bool) (command : Text) : Option Action := do
  let indexLabel := if footer then 20 else 13
  let first := findBar command indexLabel
  let second := findBar command (first + 1).toNat
  let tail ← substrFrom command indexLabel
  let label := if first < 0 then tail else tail.take (first.toNat - indexLabel)
  let rest ← substrFrom command (first + 1).toNat
  if 0 < second then
    let type ← substrFrom command (second.toNat + 1)
    some (.button footer (trimLeft label) (rest.take (second - first - 1).toNat) type)
  else some (.button footer (trimLeft label) rest "none".toList)

def startsWith (s : Text) (p : String) : Bool := p.toList.isPrefixOf s

/-- The tests in their order: some names are prefixes of others. -/
def parseAction (command : Text) : Option Action :=
  if startsWith command "prompt_begin" then (substrFrom command 13).map .begin
  else if startsWith command "prompt_text" then (substrFrom command 12).map .text
  else if startsWith command "prompt_button_group_start" then some .groupStart
  else if startsWith command "prompt_button_group_end" then some .groupEnd
  else if startsWith command "prompt_footer_button" then parseButton true command
  else if startsWith command "prompt_button" then parseButton false command
  else if startsWith command "prompt_show" then some .show
  else if startsWith command "prompt_end" then some .end
  else some .unsupported

/-- The command of an action line. -/
def actionCommand (resp : Text) : Option Text :=
  if startsWith resp "// action:" then some (resp.drop 10) else none

/-- The action of a response, if it has one. -/
def lineAction (resp : Text) : Option Action := (actionCommand resp).bind parseAction

example : lineAction "// action:prompt_footer_button  STOP|CANCEL_PRINT|error".toList =
    some (.button true "STOP".toList "CANCEL_PRINT".toList "error".toList) := by
  decide

end PowerScreen.Prompt
