import Mainframe.Outline
import Mainframe.Text.Lines

/-
  The prompt that asks for an explanation of an outline.

  A prompt states the rules, then what is known as JSON text, then the task.
  Sections of a COBOL prompt that have no data are left out.
-/

namespace Mainframe.Prompt

/-- A list of records as JSON text. -/
def listText {α : Type} (encode : α → Json) (as : List α) : String :=
  (Json.ofList encode as).text .pretty

/-- The rules for explaining a job deck. -/
def deckRules : String :=
  Text.unlines [
    "You are a senior IBM Mainframe JCL engineer.",
    "",
    "STRICT RULES (MANDATORY):",
    "- Explain ONLY the JCL job described below.",
    "- Do NOT invent steps, datasets, or utilities.",
    "- Do NOT explain COBOL, SQL, or business logic.",
    "- Do NOT give examples.",
    "- Use standard JCL terminology only.",
    "- Provide a concise, step-by-step explanation of the JOB, EXEC steps, and DD statements."]

/-- The prompt for a job deck. -/
def ofDeck (o : Jcl.Outline) : String :=
  deckRules ++ "\nJCL INTERMEDIATE REPRESENTATION (IR):\n" ++ o.toJson.text .pretty
    ++ "\n\nProvide a clear, professional explanation of this JCL job structure.\n"

/-- The rules for explaining a program. -/
def programRules : String :=
  Text.unlines [
    "You are a senior IBM Mainframe COBOL engineer.",
    "",
    "MANDATORY RULES (STRICT)",
    "- Explain ONLY what is explicitly present in the IR.",
    "- Treat this as STATIC CODE ANALYSIS, not program execution.",
    "- Do NOT assume runtime values or evaluate conditions.",
    "- Do NOT invent missing statements, paragraphs, or logic.",
    "- Do NOT reference line numbers.",
    "- Give a numeric example ONLY for operations listed under ARITHMETIC OPERATIONS."]

/-- What is asked about a program. -/
def programTask : String :=
  Text.unlines [
    "",
    "TASK",
    "1. Describe the overall program purpose at a high level.",
    "2. Explain the program flow using semantic blocks, not line by line.",
    "3. Explain conditional logic as possible branches if CONTROL FLOW STRUCTURE appears above.",
    "4. Describe file handling if FILE OPERATIONS appears above.",
    "5. Do not mention sections that do not appear above."]

/-- A section with a heading, left out if there is nothing to list. -/
def listSection {α : Type} (heading : String) (encode : α → Json) (as : List α) : String :=
  if as.isEmpty then "" else "\n" ++ heading ++ ":\n" ++ listText encode as ++ "\n"

/-- The prompt for a program. -/
def ofProgram (o : Cobol.Outline) : String :=
  programRules ++ "\nCOBOL PROGRAM NAME:\n" ++ o.displayName ++ "\n\nEXECUTABLE STRUCTURE:\n"
    ++ listText Cobol.Statement.toJson o.statements ++ "\n"
    ++ listSection "CONTROL FLOW STRUCTURE" Cobol.ControlFlow.toJson o.controlFlow
    ++ listSection "FILE OPERATIONS" Cobol.FileOperation.toJson o.fileOperations
    ++ listSection "ARITHMETIC OPERATIONS" Cobol.Statement.toJson
      (o.statements.filter (fun s => s.action.isArithmetic))
    ++ programTask

/-- The prompt for an outline. -/
def ofOutline : Outline → String
  | .cobol program => ofProgram program
  | .jcl deck => ofDeck deck

end Mainframe.Prompt
