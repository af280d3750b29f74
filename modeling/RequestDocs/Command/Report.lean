import RequestDocs.Generation.Stats
import RequestDocs.Terminal.Palette
/-!
# Reports

The lines that tell what a generation did.
-/

namespace RequestDocs

def stampedLine (p : Palette) (time : String) (color : Color) (message : String) : String :=
  p.timestamp.paint ("[" ++ time ++ "]") ++ " " ++ color.paint message ++ "\n"

/-- The blanks in front of a figure, as wide as the time in front of a message. -/
def figureIndent : String := "            "

def figureLine (p : Palette) (label value : String) : String :=
  figureIndent ++ p.label.paint label ++ " " ++ p.value.paint value ++ "\n"

def linesIf (condition : Bool) (lines : List String) : List String :=
  if condition then lines else []

namespace Stats

/-- The figures of a generation. Operations left out and warnings are counted when there are any,
models when they were asked for. -/
def figureLines (s : Stats) (p : Palette) (models : Bool) : List String :=
  [figureLine p "Services:" (toString s.services),
    figureLine p "Documents generated:" (toString s.documentsGenerated),
    figureLine p "" (toString s.bodiesSynthesized ++ " with a synthesized body")] ++
  linesIf (0 < s.skipped) [figureLine p "" (toString s.skipped ++ " operations skipped")] ++
  linesIf models [figureLine p "Models generated:" (toString s.modelsGenerated)] ++
  linesIf (!s.warnings.isEmpty) [figureLine p "Warnings:" (toString s.warnings.length)]

/-- The warnings to show: those about items left out, and all of them on request. -/
def shownWarnings (s : Stats) (verbose : Bool) : List Warning :=
  s.warnings.filter fun w => w.isSkippedItem || verbose

end Stats

def Warning.line (p : Palette) (w : Warning) : String :=
  let label := if w.isSkippedItem then "Skipped:" else "Warning:"
  p.accent.paint label ++ " " ++ p.primary.paint w.message ++ "\n"

end RequestDocs
