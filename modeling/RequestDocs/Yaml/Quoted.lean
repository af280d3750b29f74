import RequestDocs.Yaml.Cursor
import RequestDocs.Yaml.Scalar
/-!
# Quoted scalars

Text between quotes. Line ends are folded, a single quote is doubled, and a backslash escapes inside
double quotes.
-/

namespace RequestDocs.Yaml

def prepend (text : List Char) (result : List Char × Cursor) : List Char × Cursor :=
  (text ++ result.1, result.2)

def readSingle (gap : Gap) (line column : Nat) : List Char → Option (List Char × Cursor)
  | [] => none
  | '\'' :: '\'' :: cs => prepend (gap.text ++ ['\'']) <$> readSingle .none line (column + 2) cs
  | '\'' :: cs => some (gap.text, ⟨cs, line, column + 1⟩)
  | '\n' :: cs => readSingle gap.addBreak (line + 1) 0 cs
  | c :: cs =>
    if isSpace c then readSingle (gap.addSpace c) line (column + 1) cs
    else prepend (gap.text ++ [c]) <$> readSingle .none line (column + 1) cs

def escape? : Char → Option Char
  | '0' => some '\x00'
  | 'a' => some '\x07'
  | 'b' => some '\x08'
  | 't' => some '\t'
  | '\t' => some '\t'
  | 'n' => some '\n'
  | 'v' => some '\x0b'
  | 'f' => some '\x0c'
  | 'r' => some '\r'
  | 'e' => some '\x1b'
  | ' ' => some ' '
  | '"' => some '"'
  | '/' => some '/'
  | '\\' => some '\\'
  | 'N' => some '\u0085'
  | '_' => some '\u00a0'
  | 'L' => some '\u2028'
  | 'P' => some '\u2029'
  | _ => none

def codePoint? (cs : List Char) : Option Char := do
  let n ← digits? 16 cs
  if n.isValidChar then some (Char.ofNat n) else none

def readDouble (gap : Gap) (line column : Nat) : List Char → Option (List Char × Cursor)
  | [] => none
  | '"' :: cs => some (gap.text, ⟨cs, line, column + 1⟩)
  | '\n' :: cs => readDouble gap.addBreak (line + 1) 0 cs
  | '\\' :: '\n' :: cs => prepend gap.text <$> readDouble (.escaped 0) (line + 1) 0 cs
  | '\\' :: 'x' :: a :: b :: cs => do
    let c ← codePoint? [a, b]
    prepend (gap.text ++ [c]) <$> readDouble .none line (column + 4) cs
  | '\\' :: 'u' :: a :: b :: c :: d :: cs => do
    let c ← codePoint? [a, b, c, d]
    prepend (gap.text ++ [c]) <$> readDouble .none line (column + 6) cs
  | '\\' :: 'U' :: a :: b :: c :: d :: e :: f :: g :: h :: cs => do
    let c ← codePoint? [a, b, c, d, e, f, g, h]
    prepend (gap.text ++ [c]) <$> readDouble .none line (column + 10) cs
  | '\\' :: c :: cs => do
    let c ← escape? c
    prepend (gap.text ++ [c]) <$> readDouble .none line (column + 2) cs
  | c :: cs =>
    if c == '\\' then none
    else if isSpace c then readDouble (gap.addSpace c) line (column + 1) cs
    else prepend (gap.text ++ [c]) <$> readDouble .none line (column + 1) cs

end RequestDocs.Yaml
