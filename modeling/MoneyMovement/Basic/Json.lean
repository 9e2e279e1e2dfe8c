import MoneyMovement.Basic.Text

/-!
# JSON values and their canonical text

`stableStringify` writes a value with the keys of every object sorted. The type
of numbers is left open: its text is what `Number.prototype.toString` gives.
-/

namespace MoneyMovement

inductive Json (N : Type) : Type where
  | null
  | bool (b : Bool)
  | num (n : N)
  | str (s : JsString)
  | arr (items : List (Json N))
  | obj (fields : List (JsString × Json N))

section Quote

def isHighSurrogate (c : CodeUnit) : Bool := 0xD800 ≤ c.val ∧ c.val ≤ 0xDBFF

def isLowSurrogate (c : CodeUnit) : Bool := 0xDC00 ≤ c.val ∧ c.val ≤ 0xDFFF

def unicodeEscape (c : CodeUnit) : JsString := js "\\u" ++ (digits 16 4 c.val).map hexUnit

def quoteUnit (c : CodeUnit) : JsString :=
  if c = 0x22 then js "\\\""
  else if c = 0x5C then js "\\\\"
  else if c = 0x08 then js "\\b"
  else if c = 0x0C then js "\\f"
  else if c = 0x0A then js "\\n"
  else if c = 0x0D then js "\\r"
  else if c = 0x09 then js "\\t"
  else if c.val < 0x20 ∨ isHighSurrogate c ∨ isLowSurrogate c then unicodeEscape c
  else [c]

def quoteUnits : JsString → JsString
  | [] => []
  | [c] => quoteUnit c
  | c :: d :: rest =>
    if isHighSurrogate c ∧ isLowSurrogate d then c :: d :: quoteUnits rest
    else quoteUnit c ++ quoteUnits (d :: rest)

/-- `JSON.stringify` of a string. -/
def quote (s : JsString) : JsString := js "\"" ++ quoteUnits s ++ js "\""

end Quote

section Stringify

variable {N : Type} (numText : N → JsString)

def insertKey (p : JsString × JsString) : List (JsString × JsString) → List (JsString × JsString)
  | [] => [p]
  | q :: rest => if p.1 ≤ q.1 then p :: q :: rest else q :: insertKey p rest

/-- `Object.keys(..).sort()`, each key with the text of its value. -/
def sortKeys (fields : List (JsString × JsString)) : List (JsString × JsString) :=
  fields.foldr insertKey []

mutual

def stableStringify : Json N → JsString
  | .null => js "null"
  | .bool b => if b then js "true" else js "false"
  | .num n => numText n
  | .str s => quote s
  | .arr items => js "[" ++ (js ",").intercalate (stringifyItems items) ++ js "]"
  | .obj fields =>
    js "\x7b" ++ (js ",").intercalate
      ((sortKeys (stringifyFields fields)).map fun p => quote p.1 ++ js ":" ++ p.2) ++ js "\x7d"

def stringifyItems : List (Json N) → List JsString
  | [] => []
  | v :: rest => stableStringify v :: stringifyItems rest

def stringifyFields : List (JsString × Json N) → List (JsString × JsString)
  | [] => []
  | (key, v) :: rest => (key, stableStringify v) :: stringifyFields rest

end

/-- SHA-256 of the canonical payload, for the digest function of `node:crypto`. -/
def hashRequestPayload (sha256 : JsString → JsString) (payload : Json N) : JsString :=
  sha256 (stableStringify numText payload)

end Stringify

end MoneyMovement
