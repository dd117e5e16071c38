/-!
# Strings as JSON text and as Python literals

`json.dumps` of strings, with its default `ensure_ascii`, and `repr` of strings.
-/

namespace PeReview.Data

def hexDigit (value : Nat) : Char :=
  if value < 10 then Char.ofNat (48 + value) else Char.ofNat (87 + value)

/-- The escape of one UTF-16 code unit. -/
def unicodeEscape (unit : Nat) : List Char :=
  ['\\', 'u', hexDigit (unit / 4096 % 16), hexDigit (unit / 256 % 16),
    hexDigit (unit / 16 % 16), hexDigit (unit % 16)]

def jsonChar (char : Char) : List Char :=
  let code := char.toNat
  match code with
  | 34 => ['\\', '"']
  | 92 => ['\\', '\\']
  | 8 => ['\\', 'b']
  | 9 => ['\\', 't']
  | 10 => ['\\', 'n']
  | 12 => ['\\', 'f']
  | 13 => ['\\', 'r']
  | _ =>
      if 32 ≤ code && code < 127 then [char]
      else if code < 65536 then unicodeEscape code
      else
        unicodeEscape (55296 + (code - 65536) / 1024) ++
          unicodeEscape (56320 + (code - 65536) % 1024)

/-- `json.dumps(text)`. -/
def jsonString (text : String) : String :=
  String.ofList ('"' :: text.toList.flatMap jsonChar ++ ['"'])

/-- One character of `repr(text)`.  A character above Latin-1 stands for itself. -/
def reprChar (quote char : Char) : List Char :=
  let code := char.toNat
  if char = quote || char = '\\' then ['\\', char]
  else
    match code with
    | 9 => ['\\', 't']
    | 10 => ['\\', 'n']
    | 13 => ['\\', 'r']
    | _ =>
        if code < 32 || (127 ≤ code && code ≤ 160) || code = 173 then
          ['\\', 'x', hexDigit (code / 16), hexDigit (code % 16)]
        else [char]

/-- `repr(text)`: in single quotes, unless only these would need an escape. -/
def reprString (text : String) : String :=
  let single := Char.ofNat 39
  let quote := if single ∈ text.toList ∧ '"' ∉ text.toList then '"' else single
  String.ofList (quote :: text.toList.flatMap (reprChar quote) ++ [quote])

end PeReview.Data
