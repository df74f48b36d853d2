import Mender.Defect
import Mender.Excerpt
import Mender.Yaml.Writer

namespace Mender.Prompt

/-- A defect as the prompt shows it; parts that are missing are left out. -/
def defectText (d : Defect) : Text :=
  let place : Text :=
    match d.position with
    | none => []
    | some p =>
      "position:\n" ++ Yaml.keyLine 1 "line" (Text.ofNat p.line)
        ++ Yaml.keyLine 1 "column" (Text.ofNat p.column)
  let rule : Text :=
    match d.rule with
    | none => []
    | some rule => Yaml.textLine 0 "rule" rule
  let fixable : Text :=
    match d.fixable with
    | none => []
    | some b => Yaml.keyLine 0 "fixable" (if b then "true" else "false")
  Yaml.textLine 0 "message" d.message ++ Yaml.keyLine 0 "severity" d.severity.word
    ++ place ++ rule ++ fixable

def opening : Text :=
  "You are an expert code reviewer. Fix the reported defect in the source excerpt below with the smallest possible change.\n\nDefect:\n"

def closing : Text :=
  "\n\nRespond with ONLY valid JSON. Use this exact structure:\n\n\x7b\n  \"suggestions\": [\n    \x7b\n      \"title\": \"<brief fix title>\",\n      \"description\": \"<what the fix changes and why it resolves the defect>\",\n      \"confidence\": <0.0-1.0>,\n      \"edits\": [\n        \x7b\n          \"kind\": \"insert\" | \"delete\" | \"replace\",\n          \"start\": \x7b\"line\": <line>, \"column\": <column>\x7d,\n          \"end\": \x7b\"line\": <line>, \"column\": <column>\x7d | null,\n          \"text\": \"<new text>\" | null\n        \x7d\n      ]\n    \x7d\n  ]\n\x7d\n\nEdit semantics:\n- Positions are 1-based and refer to the full file, use the line numbers shown\n- insert: put \"text\" at \"start\"\n- delete with \"end\": remove [start, end); delete without \"end\": remove line start.line\n- replace with \"end\": replace [start, end) with \"text\"; without \"end\": replace the whole content of line start.line with \"text\"\n- Edits of one suggestion are applied in order, each against the result of the previous one\n\nRules:\n- Propose at most 3 suggestions, best first\n- Do NOT rewrite code unrelated to the defect\n- If you cannot fix the defect, return an empty \"suggestions\" list\n"

def ofDefect (d : Defect) (t : Text) (radius : Json) : Except Fault Text := do
  let excerpt ← Excerpt.aroundLoosely t (d.line.map fun n => (n : Int)) radius
  pure <| opening ++ defectText d ++ "\n\nSource excerpt (lines " ++ Text.ofInt excerpt.first ++ "-"
    ++ Text.ofInt excerpt.last
    ++ ", each prefixed by its 1-based line number and a bar; the prefix is NOT part of the code):\n\n"
    ++ excerpt.text ++ closing

def system : Text :=
  "You repair source code defects reported by static analyzers. Reply with JSON only."

end Mender.Prompt
