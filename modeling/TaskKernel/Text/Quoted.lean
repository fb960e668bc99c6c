import TaskKernel.Text.Classes

namespace TaskKernel.Text

def hexDigits (n : Nat) : String := String.ofList (Nat.toDigits 16 n)

def hex (n : Nat) : String := "0x" ++ hexDigits n

def escape (c : Char) : String :=
  if c = '\x00' then "\\0"
  else if c = '\t' then "\\t"
  else if c = '\r' then "\\r"
  else if c = '\n' then "\\n"
  else if c = '"' then "\\\""
  else if c = '\\' then "\\\\"
  else if isExtending c || !isPrintable c then "\\u\x7b" ++ hexDigits c.toNat ++ "\x7d"
  else c.toString

def quote (s : String) : String := "\"" ++ String.join (s.toList.map escape) ++ "\""

def bracketed (opening closing : String) (items : List String) : String :=
  opening ++ ", ".intercalate items ++ closing

def list (items : List String) : String := bracketed "[" "]" items

def braces (items : List String) : String := bracketed "\x7b" "\x7d" items

def record (name : String) (fields : List (String × String)) : String :=
  bracketed (name ++ " \x7b ") " \x7d" (fields.map fun f => f.1 ++ ": " ++ f.2)

def optional : Option String → String
  | none => "None"
  | some s => "Some(" ++ s ++ ")"

def result : Except String String → String
  | .ok s => "Ok(" ++ s ++ ")"
  | .error s => "Err(" ++ s ++ ")"

end TaskKernel.Text
