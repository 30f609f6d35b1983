import ShortcutRelay.Swift.Dialog
import ShortcutRelay.Swift.Parameter

/-!
# Intents in Swift

* `intentStruct` : the type that runs a shortcut.

The generated function asks for the missing values, goes through the state dialogs, writes the
parameters and the command, posts the notification and waits for the reply.
-/

namespace ShortcutRelay.Swift
open Text ShortcutRelay.Localization

def intentTitle (s : Shortcut) (useKeys : Bool) : String :=
  if useKeys then inQuotes (titleKey s.identifier) else literal s.title

/-- The description of an intent, if the shortcut has one. -/
def intentDescription (s : Shortcut) (useKeys : Bool) : String :=
  match s.description with
  | some text =>
    if text = "" then ""
    else
      let value :=
        if useKeys then inQuotes (descriptionKey s.identifier) else literal text
      "static var description = IntentDescription(" ++ value ++ ")"
  | none => ""

def systemMessage (useKeys : Bool) (m : SystemMessage) : String :=
  message useKeys m.key m.text

/-- Why an intent has no Swift text: a parameter has a type that is not known, or the value that a
dialog waits for has too many digits. -/
inductive IntentError
  | unknownType (error : UnknownType)
  | number (error : NumberError)

/-- The type that runs a shortcut. -/
def intentStruct (s : Shortcut) (useKeys : Bool) : Except IntentError String := do
  let name := s.className
  let log (text : String) : String := "print(\"[" ++ name ++ "] " ++ text ++ "\")"
  let declarations ←
    (parameterDeclarations s.parameters useKeys s.identifier).mapError .unknownType
  let initializers ← (initializers s.parameters).mapError .unknownType
  let dialogs ← (stateDialogs s useKeys).mapError .number
  let confirmedWrite :=
    if s.hasConfirmation then
      "\n        defaults.set(userConfirmedOverride, forKey: " ++
        inQuotes Protocol.userConfirmed ++ ")"
    else ""
  return joinLines [
    "",
    "@available(iOS 16.0, *)",
    "struct " ++ name ++ ": AppIntent \x7b",
    "    static var title: LocalizedStringResource = " ++ intentTitle s useKeys,
    "    " ++ intentDescription s useKeys,
    "    static var openAppWhenRun: Bool \x7b true \x7d",
    declarations ++ initializers,
    "    func perform() async throws -> some IntentResult & ProvidesDialog \x7b",
    "        " ++ log ("Performing shortcut: " ++ s.identifier),
    "",
    "        // App Intents run in a separate process with sandbox restrictions.",
    "        // Inter-process communication happens via UserDefaults with App Groups",
    "        // (configured via App Capabilities in Xcode: group.<bundle-id>).",
    "        guard let defaults = UserDefaults(suiteName: APP_GROUP_ID) else \x7b",
    "            " ++ log "ERROR: Failed to access App Group",
    "            return .result(dialog: IntentDialog(stringLiteral: " ++
      systemMessage useKeys appGroupFailed ++ "))",
    "        \x7d",
    parameterRequests s.parameters useKeys s.identifier ++ dialogs,
    "        let nonce = UUID().uuidString",
    parameterWrites s.parameters name,
    "        defaults.set(" ++ inQuotes s.identifier ++ ", forKey: " ++
      inQuotes Protocol.commandIdentifier ++ ")",
    "        defaults.set(nonce, forKey: " ++ inQuotes Protocol.commandNonce ++ ")",
    "        defaults.set(Date().timeIntervalSince1970, forKey: " ++
      inQuotes Protocol.commandTimestamp ++ ")" ++ confirmedWrite,
    "",
    "        " ++ log "Command written to shared UserDefaults",
    "",
    "        // Post Darwin notification to wake up main app (cross-process notification)",
    "        CFNotificationCenterPostNotification(",
    "            CFNotificationCenterGetDarwinNotifyCenter(),",
    "            CFNotificationName(" ++ inQuotes Protocol.commandNotification ++
      " as CFString),",
    "            nil, nil, true",
    "        )",
    "",
    "        " ++ log "Darwin notification posted",
    "",
    "        // Poll UserDefaults for the app's response (with timeout).",
    "        // The nonce ensures we don't receive stale responses from previous executions.",
    "        let responseKey = " ++ inQuotes (Protocol.replyEntry "\\(nonce)"),
    "        let timeout: TimeInterval = " ++ formatFloat Protocol.replyTimeout ++ ".0",
    "        let pollInterval: TimeInterval = " ++ Decimal.plain.write Protocol.lookInterval,
    "        let startTime = Date()",
    "",
    "        " ++ log "Waiting for response...",
    "",
    "        while Date().timeIntervalSince(startTime) < timeout \x7b",
    "            // Check for response with this specific nonce",
    "            if let responseMessage = defaults.string(forKey: responseKey) \x7b",
    "                " ++ log "Received response: \\(responseMessage)",
    "",
    "                // Clean up to prevent duplicate processing",
    "                defaults.removeObject(forKey: responseKey)",
    "",
    "                // An empty responseMessage makes Siri speak its default feedback",
    "                return .result(dialog: IntentDialog(stringLiteral: responseMessage))",
    "            \x7d",
    "",
    "            // Non-blocking sleep to reduce CPU usage while polling",
    "            try? await Task.sleep(nanoseconds: UInt64(pollInterval * 1_000_000_000))",
    "        \x7d",
    "",
    "        " ++ log "Timeout waiting for response",
    "",
    "        // Timeout reached - the app may have crashed, failed, or responded too slowly",
    "        return .result(dialog: IntentDialog(stringLiteral: " ++
      systemMessage useKeys timedOut ++ "))",
    "    \x7d",
    "\x7d"]

end ShortcutRelay.Swift
