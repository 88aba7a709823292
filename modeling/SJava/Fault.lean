/-
What can be wrong with a line of a program.  A fault carries the part of the line it is
about; its name, its message and the advice that goes with it are functions of the fault.
A diagnostic is a fault together with the line where it was found.
-/
import SJava.Text.Quoted

namespace SJava

inductive Fault where
  | unknownType (type : Text)
  | variableAlreadyDeclared (name : Text)
  | variableNotDeclared (name : Text)
  | variableUninitializedUse (name : Text)
  | finalReassignment (name : Text)
  | uninitializedFinalDeclaration (name : Text)
  | declarationSyntax (line : Text)
  | assignmentSyntax (line : Text)
  | duplicateInStatement (name : Text)
  | typeIncompatible (expected received : Text)
  | methodNotDeclared (method : Text)
  | methodAlreadyDeclared (method : Text)
  | methodArityMismatch (method : Text) (expected received : Nat)
  | methodArgumentTypeMismatch (expected received : Text)
  | methodCallOutsideMethod (method : Text)
  | emptyArgument (method : Text)
  | invalidParameter (parameter : Text)
  | invalidParameterName (name : Text)
  | reservedWordMisuse (word : Text)
  | methodDeclarationOutsideGlobal (method : Text)
  | conditionOutsideMethod
  | conditionSyntax (condition : Text)
  | returnOutsideMethod
  | missingReturnBeforeBlockEnd
  | unmatchedBlockEnd
  | illegalComment
  | unknownLineSyntax (line : Text)
  | unclosedScope
  deriving DecidableEq, Repr

namespace Fault

/-- The name of a kind of fault. -/
def name : Fault → String
  | unknownType _ => "UnknownType"
  | variableAlreadyDeclared _ => "VariableAlreadyDeclared"
  | variableNotDeclared _ => "VariableNotDeclared"
  | variableUninitializedUse _ => "VariableUninitializedUse"
  | finalReassignment _ => "FinalReassignment"
  | uninitializedFinalDeclaration _ => "UninitializedFinalDeclaration"
  | declarationSyntax _ => "DeclarationSyntax"
  | assignmentSyntax _ => "AssignmentSyntax"
  | duplicateInStatement _ => "DuplicateInStatement"
  | typeIncompatible _ _ => "TypeIncompatible"
  | methodNotDeclared _ => "MethodNotDeclared"
  | methodAlreadyDeclared _ => "MethodAlreadyDeclared"
  | methodArityMismatch _ _ _ => "MethodArityMismatch"
  | methodArgumentTypeMismatch _ _ => "MethodArgumentTypeMismatch"
  | methodCallOutsideMethod _ => "MethodCallOutsideMethod"
  | emptyArgument _ => "EmptyArgument"
  | invalidParameter _ => "InvalidParameter"
  | invalidParameterName _ => "InvalidParameterName"
  | reservedWordMisuse _ => "ReservedWordMisuse"
  | methodDeclarationOutsideGlobal _ => "MethodDeclarationOutsideGlobal"
  | conditionOutsideMethod => "ConditionOutsideMethod"
  | conditionSyntax _ => "ConditionSyntax"
  | returnOutsideMethod => "ReturnOutsideMethod"
  | missingReturnBeforeBlockEnd => "MissingReturnBeforeBlockEnd"
  | unmatchedBlockEnd => "UnmatchedBlockEnd"
  | illegalComment => "IllegalComment"
  | unknownLineSyntax _ => "UnknownLineSyntax"
  | unclosedScope => "UnclosedScope"

/-- Parts of a line are quoted in messages, so that their ends and their hidden characters
show. -/
def quote (s : Text) : String := String.ofList (Text.quoted s)

/-- What is wrong, in words.  Types, which are words of the language, stand unquoted. -/
def message : Fault → String
  | unknownType t => s!"invalid variable type: {quote t}"
  | variableAlreadyDeclared x => s!"variable {quote x} already declared"
  | variableNotDeclared x => s!"variable {quote x} not declared"
  | variableUninitializedUse x => s!"unassigned variable: {quote x}"
  | finalReassignment x => s!"cannot assign a value to final variable {quote x}"
  | uninitializedFinalDeclaration x => s!"final variable {quote x} must be initialized"
  | declarationSyntax l => s!"invalid declaration syntax: {quote l}"
  | assignmentSyntax l => s!"invalid assignment syntax: {quote l}"
  | duplicateInStatement x => s!"variable {quote x} declared twice in one statement"
  | typeIncompatible e r =>
    s!"incompatible types: expected {String.ofList e}, received {String.ofList r}"
  | methodNotDeclared m => s!"method {quote m} is not declared"
  | methodAlreadyDeclared m => s!"method {quote m} already declared"
  | methodArityMismatch m e r =>
    s!"incorrect number of arguments for method {quote m}: expected {e}, received {r}"
  | methodArgumentTypeMismatch e r =>
    s!"argument types do not match: expected {String.ofList e}, received {quote r}"
  | methodCallOutsideMethod m => s!"cannot call method {quote m} in the global scope"
  | emptyArgument m => s!"empty argument in call to {quote m}"
  | invalidParameter p => s!"invalid parameter format: {quote p}"
  | invalidParameterName x => s!"invalid parameter name: {quote x}"
  | reservedWordMisuse w => s!"reserved word {quote w} cannot be used as a name"
  | methodDeclarationOutsideGlobal m =>
    s!"method {quote m} cannot be declared inside another method"
  | conditionOutsideMethod => "a conditional block must appear inside a method"
  | conditionSyntax c => s!"invalid condition syntax: {quote c}"
  | returnOutsideMethod => "return statements are not allowed outside of a method"
  | missingReturnBeforeBlockEnd => "method must return before closing"
  | unmatchedBlockEnd => "closing brace without an open scope"
  | illegalComment => "comments must not be preceded by whitespace"
  | unknownLineSyntax l => s!"unknown line type: {quote l}"
  | unclosedScope => "all scopes must be closed"

/-- Advice on how to mend a fault, where there is some. -/
def tip? : Fault → Option String
  | unknownType t =>
    some s!"Unknown type `{String.ofList t}`, expected one of int, double, boolean, char, String"
  | variableAlreadyDeclared x =>
    some s!"Variable `{String.ofList x}` is already declared in this scope"
  | variableNotDeclared x => some s!"Variable `{String.ofList x}` not declared"
  | variableUninitializedUse x =>
    some s!"Variable `{String.ofList x}` is used before it is assigned a value"
  | finalReassignment x => some s!"Variable `{String.ofList x}` is final and cannot be assigned"
  | uninitializedFinalDeclaration x =>
    some s!"Final variable `{String.ofList x}` must be initialized where it is declared"
  | declarationSyntax _ => some "Expected `[final] <type> <name> [= <value>], ...;`"
  | assignmentSyntax _ => some "Values must be a literal or the name of a variable"
  | duplicateInStatement x => some s!"Variable `{String.ofList x}` appears twice in one statement"
  | typeIncompatible e r => some s!"Expected type `{String.ofList e}`, received `{String.ofList r}`"
  | methodNotDeclared m => some s!"Method `{String.ofList m}` not declared"
  | methodAlreadyDeclared m => some s!"Method `{String.ofList m}` already declared"
  | methodArityMismatch m e r =>
    some s!"Method `{String.ofList m}` expects {e} arguments, received {r}"
  | methodArgumentTypeMismatch e r =>
    some s!"Expected argument type `{String.ofList e}`, received `{String.ofList r}`"
  | methodCallOutsideMethod _ => some "Methods can only be called from inside a method body"
  | emptyArgument _ => none
  | invalidParameter _ => some "Expected `[final] <type> <name>`"
  | invalidParameterName x => some s!"`{String.ofList x}` is not a valid parameter name"
  | reservedWordMisuse w => some s!"`{String.ofList w}` is a reserved word"
  | methodDeclarationOutsideGlobal _ => some "Methods cannot be declared inside another method"
  | conditionOutsideMethod => some "`if` and `while` blocks must appear inside a method"
  | conditionSyntax _ => some "Conditions are operands joined by `&&` or `||`"
  | returnOutsideMethod => none
  | missingReturnBeforeBlockEnd => some "The last statement of a method must be `return;`"
  | unmatchedBlockEnd => none
  | illegalComment => some "Comments must start at the beginning of the line"
  | unknownLineSyntax _ => none
  | unclosedScope => some "Every `\x7b` must be closed by a matching `\x7d`"

end Fault

/-- A fault and the line it was found on, counted from one. -/
structure Diagnostic where
  fault : Fault
  line : Nat
  deriving DecidableEq, Repr

namespace Diagnostic

def message (d : Diagnostic) : String := s!"Line {d.line} - {d.fault.message}"

end Diagnostic
end SJava
