import RegAtlas.Text.Basic

/-!
# Keyword properties

Properties whose value is one of a few keywords. Each has the value `unset` for a property that is
absent or given by an unknown keyword.
-/

namespace RegAtlas

/-- A property with keyword values. -/
class Keyword (α : Type) where
  unset : α
  /-- The values that have a keyword. -/
  known : List α
  /-- The keyword in a register description. -/
  keyword? : α → Option String
  /-- The name of the value in a dump. -/
  tag : α → String

/-- Reads a keyword. Case and surrounding white space do not count. -/
def Keyword.ofText {α : Type} [Keyword α] (text : String) : α :=
  let word := Text.trim text
  (known.find? fun a => (keyword? a).any (Text.equalsIgnoringCase word)).getD unset

/-- Whether an enumerated value applies to reads, writes or both. -/
inductive EnumUsage where
  | unset
  | read
  | write
  | readWrite
  deriving DecidableEq, Inhabited, Repr

instance : Keyword EnumUsage where
  unset := .unset
  known := [.read, .write, .readWrite]
  keyword?
    | .unset => none
    | .read => some "read"
    | .write => some "write"
    | .readWrite => some "read-write"
  tag
    | .unset => "empty"
    | .read => "read"
    | .write => "write"
    | .readWrite => "read_write"

/-- Software access to a block, register or field. -/
inductive Access where
  | unset
  | readWrite
  | readOnly
  | writeOnly
  | readWriteOnce
  | writeOnce
  deriving DecidableEq, Inhabited, Repr

instance : Keyword Access where
  unset := .unset
  known := [.readWrite, .readOnly, .writeOnly, .readWriteOnce, .writeOnce]
  keyword?
    | .unset => none
    | .readWrite => some "read-write"
    | .readOnly => some "read-only"
    | .writeOnly => some "write-only"
    | .readWriteOnce => some "read-writeOnce"
    | .writeOnce => some "writeOnce"
  tag
    | .unset => "empty"
    | .readWrite => "read_write"
    | .readOnly => "read_only"
    | .writeOnly => "write_only"
    | .readWriteOnce => "read_write_once"
    | .writeOnce => "write_once"

/-- Reads return the stored value. -/
def Access.isReadable : Access → Bool
  | .readWrite | .readOnly | .readWriteOnce => true
  | _ => false

/-- Writes have an effect. -/
def Access.isWritable : Access → Bool
  | .readWrite | .writeOnly | .readWriteOnce | .writeOnce => true
  | _ => false

/-- The access was given. -/
def Access.isSet (access : Access) : Bool := access != .unset

/-- Effect of a write on the stored value. -/
inductive ModifiedWriteValue where
  | unset
  | oneToClear
  | oneToSet
  | oneToToggle
  | zeroToClear
  | zeroToSet
  | zeroToToggle
  | clear
  | set
  | modify
  deriving DecidableEq, Inhabited, Repr

instance : Keyword ModifiedWriteValue where
  unset := .unset
  known := [.oneToClear, .oneToSet, .oneToToggle, .zeroToClear, .zeroToSet, .zeroToToggle, .clear,
    .set, .modify]
  keyword?
    | .unset => none
    | .oneToClear => some "oneToClear"
    | .oneToSet => some "oneToSet"
    | .oneToToggle => some "oneToToggle"
    | .zeroToClear => some "zeroToClear"
    | .zeroToSet => some "zeroToSet"
    | .zeroToToggle => some "zeroToToggle"
    | .clear => some "clear"
    | .set => some "set"
    | .modify => some "modify"
  tag
    | .unset => "empty"
    | .oneToClear => "one_to_clear"
    | .oneToSet => "one_to_set"
    | .oneToToggle => "one_to_toggle"
    | .zeroToClear => "zero_to_clear"
    | .zeroToSet => "zero_to_set"
    | .zeroToToggle => "zero_to_toggle"
    | .clear => "clear"
    | .set => "set"
    | .modify => "modify"

/-- Writes do something other than store the written value. -/
def ModifiedWriteValue.hasSideEffect (effect : ModifiedWriteValue) : Bool := effect != .unset

/-- Effect of a read on the stored value. -/
inductive ReadAction where
  | unset
  | clear
  | set
  | modify
  deriving DecidableEq, Inhabited, Repr

instance : Keyword ReadAction where
  unset := .unset
  known := [.clear, .set, .modify]
  keyword?
    | .unset => none
    | .clear => some "clear"
    | .set => some "set"
    | .modify => some "modify"
  tag
    | .unset => "empty"
    | .clear => "clear"
    | .set => "set"
    | .modify => "modify"

/-- Reads change the stored value. -/
def ReadAction.hasSideEffect (effect : ReadAction) : Bool := effect != .unset

/-- Constraint for automated register tests. -/
inductive TestConstraint where
  | unset
  | unconstrained
  | restore
  | writeAsRead
  | readOnly
  deriving DecidableEq, Inhabited, Repr

instance : Keyword TestConstraint where
  unset := .unset
  known := [.unconstrained, .restore, .writeAsRead, .readOnly]
  keyword?
    | .unset => none
    | .unconstrained => some "unconstrained"
    | .restore => some "restore"
    | .writeAsRead => some "writeAsRead"
    | .readOnly => some "readOnly"
  tag
    | .unset => "empty"
    | .unconstrained => "unconstrained"
    | .restore => "restore"
    | .writeAsRead => "write_as_read"
    | .readOnly => "read_only"

/-- Tests must respect a constraint. -/
def TestConstraint.isConstrained : TestConstraint → Bool
  | .unset | .unconstrained => false
  | _ => true

/-- Legal values software may write. -/
inductive WriteValueConstraint where
  | unset
  | writeAsRead
  | useEnumeratedValues
  | setMinimumAndMaximumLimits
  deriving DecidableEq, Inhabited, Repr

instance : Keyword WriteValueConstraint where
  unset := .unset
  known := [.writeAsRead, .useEnumeratedValues, .setMinimumAndMaximumLimits]
  keyword?
    | .unset => none
    | .writeAsRead => some "writeAsRead"
    | .useEnumeratedValues => some "useEnumeratedValues"
    | .setMinimumAndMaximumLimits => some "setMinimumAndMaximumLimits"
  tag
    | .unset => "empty"
    | .writeAsRead => "write_as_read"
    | .useEnumeratedValues => "use_enumerated_values"
    | .setMinimumAndMaximumLimits => "set_minimum_and_maximum_limits"

/-- Whether the value may change without software access. -/
inductive Volatile where
  | unset
  | yes
  | no
  deriving DecidableEq, Inhabited, Repr

instance : Keyword Volatile where
  unset := .unset
  known := [.yes, .no]
  keyword?
    | .unset => none
    | .yes => some "true"
    | .no => some "false"
  tag
    | .unset => "empty"
    | .yes => "true"
    | .no => "false"

/-- Whether a field takes part in automated tests. -/
inductive Testable where
  | unset
  | yes
  | no
  deriving DecidableEq, Inhabited, Repr

instance : Keyword Testable where
  unset := .unset
  known := [.yes, .no]
  keyword?
    | .unset => none
    | .yes => some "true"
    | .no => some "false"
  tag
    | .unset => "empty"
    | .yes => "true"
    | .no => "false"

/-- Kind of content of an address block. -/
inductive BlockUsage where
  | unset
  | register
  | memory
  | reserved
  deriving DecidableEq, Inhabited, Repr

instance : Keyword BlockUsage where
  unset := .unset
  known := [.register, .memory, .reserved]
  keyword?
    | .unset => none
    | .register => some "register"
    | .memory => some "memory"
    | .reserved => some "reserved"
  tag
    | .unset => "empty"
    | .register => "register"
    | .memory => "memory"
    | .reserved => "reserved"

/-- Declared type of a parameter. -/
inductive ParameterType where
  | unset
  | bit
  | byte
  | shortInt
  | int
  | longInt
  | shortReal
  | real
  | string
  deriving DecidableEq, Inhabited, Repr

instance : Keyword ParameterType where
  unset := .unset
  known := [.bit, .byte, .shortInt, .int, .longInt, .shortReal, .real, .string]
  keyword?
    | .unset => none
    | .bit => some "bit"
    | .byte => some "byte"
    | .shortInt => some "shortInt"
    | .int => some "int"
    | .longInt => some "longInt"
    | .shortReal => some "shortReal"
    | .real => some "real"
    | .string => some "string"
  tag
    | .unset => "empty"
    | .bit => "bit"
    | .byte => "byte"
    | .shortInt => "short_int"
    | .int => "int"
    | .longInt => "long_int"
    | .shortReal => "short_real"
    | .real => "real"
    | .string => "string"

end RegAtlas
