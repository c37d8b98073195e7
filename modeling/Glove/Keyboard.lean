import Glove.Loop

/-! # What the glove is for: a keyboard with two layers

In the letter layer a sign is a key of its own or belongs to a family whose keys the motion tells
apart; in the function layer a sign is a digit, and the layer is left with it. A key whose shape is the
one remembered is not sent. This file says what every sign means, apart from how the state machine
computes it. -/

namespace Glove

inductive Layer
  | letters
  | function
  deriving DecidableEq

/-- What a macro-step asks for. A selection has the key to send and the shape to remember. -/
inductive Act
  | select (key shape : Char)
  | shift
  | backspace
  | replay
  | clear
  | nothing
  deriving DecidableEq

/-- The families of signs that a motion tells apart. -/
inductive Family
  | gq | ij | five | a | sxt | co | hu | pk | dz
  deriving DecidableEq

/-- The family of a sign of the letter layer. -/
def family? : Char → Option Family
  | 'g' | 'q' => some .gq
  | 'i' | 'j' => some .ij
  | '5' => some .five
  | 'a' => some .a
  | 'm' | 'n' | 's' | 'x' | 't' => some .sxt
  | 'c' | 'o' => some .co
  | 'h' | 'u' => some .hu
  | 'p' | 'k' => some .pk
  | 'd' | 'z' => some .dz
  | _ => none

/-- A key of the letter layer is its own shape. -/
def Act.letter (key : Char) : Act := .select key key

/-- What a motion after the sign `c` of a family means. -/
def Family.meaning (c : Char) : Family → Motion → Act
  | .gq, .y => .letter 'g'
  | .gq, .Z => .letter 'q'
  | .ij, .g => .letter 'j'
  | .ij, .X => .letter 'i'
  | .five, .y => .replay
  | .five, .z => .letter ' '
  | .five, .Z => .backspace
  | .five, _ => .clear
  | .a, .Z => .shift
  | .a, .X => .letter 'a'
  | .a, .y => .letter '\x0f'
  | .sxt, .Z => .letter 'x'
  | .sxt, .y => .letter 't'
  | .sxt, .Y => .letter 's'
  | .sxt, _ => .letter (if c = 'm' then 'm' else 'n')
  | .co, .Z => .letter 'o'
  | .co, _ => .letter 'c'
  | .hu, .y => .letter 'h'
  | .hu, _ => .letter 'u'
  | .pk, .Z => .letter 'p'
  | .pk, _ => .letter 'k'
  | .dz, .X => .letter 'd'
  | .dz, .y => .letter 'z'
  | _, _ => .nothing

/-- The digit of a sign of the function layer. -/
def digit? : Char → Option Char
  | 'g' | '1' | 'd' | 'z' | 'q' => some '1'
  | 'u' | 'v' | 'k' | 'h' => some '2'
  | '3' => some '3'
  | 'b' => some '4'
  | '5' => some '5'
  | 'w' => some '6'
  | '7' => some '7'
  | '8' => some '8'
  | 'f' => some '9'
  | _ => none

def act : Layer → MacroStep → Act
  | .letters, ⟨c, answer⟩ =>
    match family? c with
    | some family =>
      match answer with
      | .motion m => family.meaning c m
      | .timeout => .nothing
    | none => if c ∈ ImuFsm.digits then .nothing else .letter c
  | .function, ⟨c, _⟩ =>
    match digit? c with
    | some digit => .select digit c
    | none => .nothing

/-- The keyboard: its layer, the shape it remembers, and whether the last repeat was carried out. -/
structure Keyboard where
  layer : Layer
  remembered : Char
  repeated : Bool
  deriving DecidableEq

namespace Keyboard

def init : Keyboard := ⟨.letters, '\x00', false⟩

/-- What an act does to the keyboard, and the keys it sends. -/
def perform (k : Keyboard) : Act → Keyboard × List Char
  | .select key shape =>
    if k.remembered = shape then ({ k with layer := .letters }, [])
    else ({ k with layer := .letters, remembered := shape }, [key])
  | .shift => ({ k with layer := .function }, [])
  | .backspace => (k, ['!'])
  | .replay =>
    if k.repeated then ({ k with repeated := false }, []) else ({ k with repeated := true }, [k.remembered])
  | .clear => ({ k with remembered := '.' }, [])
  | .nothing => (k, [])

def step (k : Keyboard) (s : MacroStep) : Keyboard × List Char := k.perform (act k.layer s)

end Keyboard

def keyboard : Mealy Keyboard MacroStep Char := ⟨Keyboard.step⟩

end Glove
