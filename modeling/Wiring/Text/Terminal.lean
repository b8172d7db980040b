/-!
# Text without terminal control

A terminal takes some characters as commands: the control characters, and
everything that belongs to a sequence behind an escape character. What is left
when they are taken out is what a terminal would show, blanks included.
-/

namespace Wiring.Text

/-- Where a terminal stands between two characters. -/
inductive TerminalState where
  /-- Outside of any sequence. -/
  | ground
  /-- Behind an escape character. -/
  | escape
  /-- Behind an escape character and intermediate characters. -/
  | intermediate
  /-- Among the parameters of a control sequence. -/
  | parameters
  /-- In a text for the terminal, which a bell does not end. -/
  | message
  /-- In a text for the terminal, which a bell ends. -/
  | command
deriving DecidableEq, Repr, Inhabited

/-- Whether a control character moves what is shown and so belongs to the text. -/
def isLayout (c : Char) : Bool := c = '\t' || c = '\n' || c = '\x0c' || c = '\r'

/-- What is left of a character whose first byte went into a sequence. -/
def brokenRest (c : Char) : List Char := List.replicate (c.utf8Size - 1) '\ufffd'

namespace TerminalState

/-- Whether a text for the terminal is being received. -/
def isReceiving : TerminalState → Bool
  | message | command => true
  | _ => false

/-- The state behind a printable character that comes in a sequence. -/
def afterPrintable : TerminalState → Char → TerminalState
  | ground, _ => ground
  | escape, c =>
      if c.toNat < 0x30 then intermediate
      else if c = '[' then parameters
      else if c = ']' then command
      else if c = 'P' ∨ c = 'X' ∨ c = '^' ∨ c = '_' then message
      else ground
  | intermediate, c => if c.toNat < 0x30 then intermediate else ground
  | parameters, c => if c.toNat < 0x40 then parameters else ground
  | message, _ => message
  | command, _ => command

/-- Takes one character and tells what is shown for it. -/
def step (state : TerminalState) (c : Char) : TerminalState × List Char :=
  if c = '\x1b' then (escape, [])
  else if c = '\x18' ∨ c = '\x1a' then (ground, [])
  else if c.toNat < 0x20 then
    if state = command ∧ c = '\x07' then (ground, [])
    else if isLayout c && !state.isReceiving then (ground, [c])
    else (state, [])
  else if c.toNat < 0x7f then (state.afterPrintable c, if state = ground then [c] else [])
  else if c = '\x7f' then (state, [])
  else (ground, if state = ground then [c] else brokenRest c)

/-- What is shown of characters. -/
def shown : TerminalState → List Char → List Char
  | _, [] => []
  | state, c :: rest =>
      let (state, front) := state.step c
      front ++ shown state rest

end TerminalState

/-- The text without terminal control. -/
def withoutControl (text : String) : String :=
  String.ofList (TerminalState.ground.shown text.toList)

end Wiring.Text
