import ScriptMachine.Script.Span
import ScriptMachine.Value.Operator

/-!
# Instruction — what the machine executes

The machine works on a stack: most instructions take their operands from it and leave their result
on it. Jumps name labels.
-/

namespace ScriptMachine

/-- The name of the property whose key is on the stack. -/
def indexer : String := "[]"

/-- An operation of the machine. -/
inductive Opcode where
  | nop
  /-- A place to jump to. -/
  | label (label : Nat)
  /-- Pushes a constant of the pool. -/
  | const (index : Nat)
  /-- Pushes the top value once more. -/
  | dup
  /-- Drops the top value. -/
  | pop
  /-- Pushes the value of a name. -/
  | fetch (name : String)
  /-- Takes an object, and a key above it for the `indexer`, and pushes the property. -/
  | fetchProperty (name : String)
  /-- Takes a value and assigns it to a name. -/
  | store (name : String)
  /-- Takes a key for the `indexer`, an object and a value, and assigns the property. -/
  | storeProperty (name : String)
  /-- Defines a name as `undefined` in the current scope. -/
  | declare (name : String)
  /-- Takes two values and pushes the result. -/
  | binary (op : BinaryOp)
  | jump (label : Nat)
  /-- Takes a value and jumps if it is truthy. -/
  | jumpTrue (label : Nat)
  /-- Takes a value and jumps if it is not truthy. -/
  | jumpFalse (label : Nat)
  /-- Takes the callee, the receiver of a method, and the arguments. -/
  | call (argc : Nat) (isMethod : Bool)
  /-- Takes the result and the call frame below it. -/
  | ret
  | enterScope
  | leaveScope
  /-- Pushes a loop marker. -/
  | loopStart
  /-- Takes the loop marker. -/
  | loopEnd
  /-- Drops values down to the loop marker and jumps. -/
  | loopExit (label : Nat)
  /-- Pushes a try region; the top value stays above it if `keep`. -/
  | tryStart (handler : Nat) (final : Option Nat) (keep : Bool)
  /-- Takes the try region. -/
  | tryEnd
  /-- Takes a value and throws it. -/
  | throw
  /-- Takes the arguments and makes an object of a class. -/
  | createObject (className : String) (argc : Nat)
  /-- Takes values and makes an array of them. -/
  | createArray (count : Nat)
  /-- Takes a value per key and makes a record. -/
  | createRecord (keys : List String)
  | debugger
  /-- The end of the script. -/
  | eof
  deriving DecidableEq, Repr

/-- The mnemonic of an operator. -/
def BinaryOp.mnemonic : BinaryOp → String
  | .add => "ADD"
  | .sub => "SUB"
  | .mul => "MUL"
  | .div => "DIV"
  | .rem => "REM"
  | .pow => "POW"
  | .eq => "EQL"
  | .ne => "NEQ"
  | .lt => "LT"
  | .le => "LTE"
  | .gt => "GT"
  | .ge => "GTE"
  | .bitAnd => "BITWISE_AND"
  | .bitOr => "BITWISE_OR"

namespace Opcode

/-- The label that an instruction jumps to. -/
def jumpTarget? : Opcode → Option Nat
  | .jump l | .jumpTrue l | .jumpFalse l | .loopExit l | .tryStart l _ _ => some l
  | _ => none

/-- Every label that an instruction names. -/
def targets : Opcode → List Nat
  | .tryStart handler (some final) _ => [handler, final]
  | op => op.jumpTarget?.toList

/-- The mnemonic of an instruction. -/
def mnemonic : Opcode → String
  | .nop => "NOP"
  | .label _ => "LABEL"
  | .const _ => "CONST"
  | .dup => "DUPLICATE_VALUE"
  | .pop => "POP_AND_DISCARD"
  | .fetch _ | .fetchProperty _ => "FETCH"
  | .store _ | .storeProperty _ => "STORE"
  | .declare _ => "DECLARE"
  | .binary op => op.mnemonic
  | .jump _ => "JMP"
  | .jumpTrue _ => "JMPTRUE"
  | .jumpFalse _ => "JMPFALSE"
  | .call _ _ => "CALL"
  | .ret => "RETURN"
  | .enterScope => "ENTER_SCOPE"
  | .leaveScope => "LEAVE_SCOPE"
  | .loopStart => "LOOP_START"
  | .loopEnd => "LOOP_END"
  | .loopExit _ => "LOOP_EXIT"
  | .tryStart _ _ _ => "TRY"
  | .tryEnd => "END_TRY"
  | .throw => "THROW"
  | .createObject _ _ => "CREATE_OBJECT"
  | .createArray _ => "CREATE_ARRAY"
  | .createRecord _ => "CREATE_RECORD"
  | .debugger => "DEBUGGER"
  | .eof => "EOF"

/-- The operands of an instruction as a listing shows them, after a blank. -/
def operandText : Opcode → String
  | .label l | .jump l | .jumpTrue l | .jumpFalse l | .loopExit l => s!" L{l}"
  | .const i => s!" #{i}"
  | .fetch name | .store name | .declare name => " " ++ name
  | .fetchProperty name | .storeProperty name => " " ++ name ++ " via_object"
  | .call argc isMethod => s!" {argc}" ++ (if isMethod then " method" else "")
  | .tryStart handler final keep =>
    s!" L{handler}" ++ (match final with
      | some l => s!" finally=L{l}"
      | none => "") ++ (if keep then " keep" else "")
  | .createObject className argc => " " ++ className ++ s!" {argc}"
  | .createArray count => s!" {count}"
  | .createRecord keys => " [" ++ ", ".intercalate keys ++ "]"
  | _ => ""

/-- An instruction as a listing shows it. -/
def text (op : Opcode) : String := op.mnemonic ++ op.operandText

end Opcode

/-- An operation with the place it comes from. A boundary is the first instruction of a
statement. -/
structure Instruction where
  op : Opcode
  span : Span := .unknown
  boundary : Bool := false
  deriving DecidableEq, Repr

/-- An instruction in a listing; a star marks a boundary. -/
def Instruction.text (i : Instruction) : String := (if i.boundary then "* " else "  ") ++ i.op.text

/-- Instructions in order. -/
abbrev Code := List Instruction

end ScriptMachine
