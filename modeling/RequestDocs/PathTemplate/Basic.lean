/-!
# Path templates

A path with tokens in braces. A token runs from an opening brace to the next closing one; a brace
that is never closed is text.
-/

namespace RequestDocs

namespace PathTemplate

/-- The names of the tokens of a path that are not empty. Inside a token, `name` is what has been
read of it. -/
def paramsFrom : (name : Option (List Char)) → List Char → List (List Char)
  | _, [] => []
  | none, c :: cs => paramsFrom (if c = '{' then some [] else none) cs
  | some name, c :: cs =>
    if c = '}' then
      let rest := paramsFrom none cs
      if name.isEmpty then rest else name :: rest
    else paramsFrom (some (name ++ [c])) cs

def inBraces (name : List Char) : List Char := '{' :: name ++ ['}']

/-- A token as a variable reference; an empty token stays as it is. -/
def asVariable (name : List Char) : List Char :=
  if name.isEmpty then inBraces name else inBraces (inBraces name)

/-- A path with its tokens as variable references. Inside a token, `name` is what has been read of
it. -/
def substituteFrom : (name : Option (List Char)) → List Char → List Char
  | none, [] => []
  | some name, [] => '{' :: name
  | none, c :: cs => if c = '{' then substituteFrom (some []) cs else c :: substituteFrom none cs
  | some name, c :: cs =>
    if c = '}' then asVariable name ++ substituteFrom none cs
    else substituteFrom (some (name ++ [c])) cs

end PathTemplate

/-- The names of the non-empty tokens of a path, from left to right, repeats included. -/
def templateParams (path : String) : List String :=
  (PathTemplate.paramsFrom none path.toList).map String.ofList

def uniqueTemplateParams (path : String) : List String := (templateParams path).eraseDups

def substituteVariables (path : String) : String :=
  String.ofList (PathTemplate.substituteFrom none path.toList)

end RequestDocs
