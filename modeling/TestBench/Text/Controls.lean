/-! # Terminal controls

A terminal takes some characters of a text as orders: control characters, and control sequences, which
begin with an escape character. Only the rest of the text shows. White space shows, also inside a
sequence that is not a string, and the text after it shows too, up to the next control.
-/

namespace TestBench.Text

/-- Where a terminal is within a control sequence. -/
inductive Terminal
  | ground
  | escape
  | intermediate
  /-- A sequence with parameters, up to its final letter. -/
  | parameters
  | command
  /-- The head of a device string: its start, its parameters, and its intermediate characters. -/
  | deviceStart
  | deviceParameters
  | deviceIntermediate
  | string
  deriving DecidableEq, Repr

namespace Terminal

def stringTerminator : UInt8 := 0x9c

/-- How a letter, a digit, or another character from the space up to the tilde moves on. -/
def afterGraphic (code : Nat) : Terminal → Terminal
  | ground => ground
  | escape =>
      if code < 0x30 then intermediate
      else if code = 0x50 then deviceStart
      else if code = 0x58 || code = 0x5e || code = 0x5f then string
      else if code = 0x5b then parameters
      else if code = 0x5d then command
      else ground
  | intermediate => if code < 0x30 then intermediate else ground
  | parameters => if code < 0x40 then parameters else ground
  | command => command
  | deviceStart =>
      if code < 0x30 then deviceIntermediate else if code < 0x40 then deviceParameters else string
  | deviceParameters =>
      if code < 0x30 then deviceIntermediate
      else if code < 0x3c then deviceParameters
      else string
  | deviceIntermediate => if code < 0x30 then deviceIntermediate else string
  | string => string

/-- How any character moves on. Outside of ASCII only the terminator of strings counts. -/
def after (t : Terminal) (c : Char) : Terminal :=
  if c = '\x1b' then escape
  else if c = '\x18' || c = '\x1a' then ground
  else if c.toNat < 0x20 || c = '\x7f' then (if t = command && c = '\x07' then ground else t)
  else if c.toNat < 0x7f then t.afterGraphic c.toNat
  else if t = string && (String.utf8EncodeChar c).contains stringTerminator then ground
  else t

def isBlank (c : Char) : Bool := [' ', '\t', '\n', '\r', '\x0c'].contains c

def isPlain (c : Char) : Bool := isBlank c || (0x20 ≤ c.toNat && c != '\x7f')

def shows (t : Terminal) (c : Char) : Bool :=
  match t with
  | ground => isPlain c
  | escape | intermediate | parameters => c != ' ' && isBlank c
  | _ => false

/-- What shows of a text, given whether the character before it showed. A character outside of ASCII
that shows ends a sequence. -/
def visible (showing : Bool) (t : Terminal) : List Char → List Char
  | [] => []
  | c :: rest =>
      if showing && isPlain c || t.shows c then
        c :: visible true (if c.toNat < 0x80 then t else ground) rest
      else visible false (t.after c) rest

end Terminal

def withoutControls (s : String) : String := String.ofList (Terminal.visible false .ground s.toList)

end TestBench.Text
