import EventProcessing.Text.Unprinted

namespace EventProcessing.Text

def hexDigits (n : Nat) : List Char := Nat.toDigits 16 n

def needsNumber (c : Char) : Bool :=
  if c.toNat < 0x80 then c.toNat < 0x20 || c.toNat == 0x7f else isUnprinted c

def quotedChar : Char → List Char
  | '"' => ['\\', '"']
  | '\\' => ['\\', '\\']
  | '\n' => ['\\', 'n']
  | '\r' => ['\\', 'r']
  | '\t' => ['\\', 't']
  | c =>
    if c = Char.ofNat 0 then ['\\', '0']
    else if needsNumber c then ['\\', 'u', '\x7b'] ++ hexDigits c.toNat ++ ['\x7d']
    else [c]

def quoted (text : String) : String :=
  String.ofList ('"' :: text.toList.flatMap quotedChar ++ ['"'])

def commaSeparated (items : List String) : String := String.intercalate ", " items

def list (items : List String) : String := "[" ++ commaSeparated items ++ "]"

inductive Extent where
  | complete
  | partially

def record (name : String) (fields : List (String × String)) (extent : Extent) : String :=
  let shown := fields.map fun field => field.1 ++ ": " ++ field.2
  match extent, shown with
  | .complete, [] => name
  | .complete, _ => name ++ " \x7b " ++ commaSeparated shown ++ " \x7d"
  | .partially, _ => name ++ " \x7b " ++ commaSeparated (shown ++ [".."]) ++ " \x7d"

end EventProcessing.Text
