import ShortcutRelay.Swift.Parameter

/-!
# Type declarations for the application

* `TypeDeclarations.variant` : the member of the union that belongs to a shortcut;
* `TypeDeclarations.file` : the declarations of all shortcuts.
-/

namespace ShortcutRelay.TypeDeclarations
open Text

def typeName : ValueType → Except UnknownType String
  | .text => .ok "string"
  | .number => .ok "number"
  | .boolean => .ok "boolean"
  | .date => .ok "Date"
  | .other name => .error ⟨name⟩

def field (p : Parameter) : Except UnknownType String := do
  let optional := if p.isOptional then "?" else ""
  return "    " ++ p.name ++ optional ++ ": " ++ (← typeName p.type) ++ ";"

/-- The member of the union that belongs to a shortcut. -/
def variant (s : Shortcut) : Except UnknownType String := do
  let fields ← mapPositions (fun _ p => field p) 0 s.parameters
  let parameters :=
    if s.parameters.isEmpty then ["      parameters?: never;"]
    else ["      parameters: \x7b", joinLines fields, "      \x7d;"]
  return joinLines <|
    ["  | \x7b",
     "      identifier: '" ++ s.identifier ++ "';",
     "      nonce: string;"] ++
    parameters ++
    ["      userConfirmed?: boolean;",
     "    \x7d"]

/-- The declarations of all shortcuts, in the order of the configuration. -/
def file (c : Config) (sourceName : String) : Except UnknownType String := do
  let variants ← mapPositions (fun _ s => variant s) 0 c.shortcuts
  let members := if variants.isEmpty then "  never" else joinLines variants
  return joinLines [
    "// AUTO-GENERATED - DO NOT EDIT",
    "// Generated from " ++ sourceName,
    "// Run 'intentbridge generate' to regenerate",
    "",
    "// This file augments the shortcut listener types with your shortcuts",
    "// No manual import needed - types are automatically applied!",
    "",
    "/**",
    " * Type-safe shortcut invocation",
    " * Provides autocomplete and type checking for shortcut identifiers and parameters",
    " *",
    " * Usage in your code:",
    " * import type \x7b ShortcutInvocation \x7d from './shortcuts.generated';",
    " *",
    " * Or use the type assertion:",
    " * const shortcut = data as ShortcutInvocation;",
    " */",
    "export type ShortcutInvocation =",
    members ++ ";",
    "",
    "/**",
    " * Callback function for responding to Siri",
    " */",
    "export type RespondCallback = (response?: \x7b message?: string \x7d) => void;",
    "",
    "/**",
    " * Listener function for shortcut events",
    " * Receives typed shortcut data with autocomplete",
    " */",
    "export type ShortcutListener = (",
    "  shortcut: ShortcutInvocation,",
    "  respond: RespondCallback",
    ") => void | Promise<void>;",
    ""]

end ShortcutRelay.TypeDeclarations
