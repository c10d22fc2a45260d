import ScreenFlow.Catalog

/-!
# Arguments

What the program is asked to do on its command line.  Words are taken one
after the other.  The values of an argument are read once it is certain that
no more will follow: when another argument begins, when a known option stands
between them, or at the end.  A word that has no meaning at all is refused at
once.
-/

namespace ScreenFlow

/-- A trigger as it is asked for.  The text of a signal has a meaning only for
a certain flow. -/
inductive TriggerWord where
  | next
  | back
  | signal (value : String)
  deriving DecidableEq, Repr

/-- What a command line asks for. -/
inductive Request where
  | walk (flow : FlowKind) (triggers : List TriggerWord) (json : Bool)
  | flows
  | config (path : Option String)
  | help
  deriving DecidableEq, Repr

/-- Why a command line asks for nothing that can be done. -/
inductive ArgumentError where
  | nothingAsked
  | unknownCommand (word : String)
  | unexpected (word : String)
  | noFlow
  | unknownFlow (word : String)
  | unknownTrigger (word : String)
  | repeatedJson
  | jsonWithValue (value : String)
  | repeatedPath
  | noPath
  deriving DecidableEq, Repr

/-- The first line that is printed about a wrong command line. -/
def ArgumentError.message : ArgumentError → String
  | nothingAsked => "nothing to do"
  | unknownCommand word => s!"unrecognized subcommand '{word}'"
  | unexpected word => s!"unexpected argument '{word}' found"
  | noFlow => "the following required arguments were not provided:"
  | unknownFlow word =>
      s!"invalid value '{word}' for '<FLOW>': " ++ FlowKind.unknownMessage word
  | unknownTrigger word =>
      s!"invalid value '{word}' for '[TRIGGERS]...': " ++
        s!"invalid trigger '{word}' " ++
        "(expected next, back or signal:<value>)"
  | repeatedJson => "the argument '--json' cannot be used multiple times"
  | jsonWithValue value =>
      s!"unexpected value '{value}' for '--json' found; " ++
        "no more were expected"
  | repeatedPath =>
      "the argument '--write <WRITE>' cannot be used multiple times"
  | noPath =>
      "a value is required for '--write <WRITE>' but none was supplied"

/-- A word of a command line, as long as options may still come. -/
inductive Word where
  | value (text : String)
  /-- An option with its value, if it has one. -/
  | option (name : String) (value : Option String)
  | endOfOptions
  deriving DecidableEq, Repr

/-- The kind of a word.  A dash alone is a value, and of letters behind a
single dash only the first one counts. -/
def Word.of (text : String) : Word :=
  match text.toList with
  | ['-', '-'] => .endOfOptions
  | '-' :: '-' :: rest =>
      .option (String.ofList ('-' :: '-' :: rest.takeWhile (· ≠ '=')))
        (match rest.dropWhile (· ≠ '=') with
        | [] => none
        | _ :: attached => some (String.ofList attached))
  | '-' :: letter :: _ => .option (String.ofList ['-', letter]) none
  | _ => .value text

def Word.asksHelp : Word → Bool
  | .option "--help" none | .option "-h" none => true
  | _ => false

/-- The trigger that a word names.  A signal needs a text. -/
def TriggerWord.ofText (word : String) : Except ArgumentError TriggerWord :=
  match word.toList with
  | 's' :: 'i' :: 'g' :: 'n' :: 'a' :: 'l' :: ':' :: first :: rest =>
      .ok (.signal (String.ofList (first :: rest)))
  | _ =>
      if word = "next" then .ok .next
      else if word = "back" then .ok .back
      else .error (.unknownTrigger word)

namespace Request

/-! ## Walks -/

/-- Values that have been taken and not read. -/
inductive Held where
  | nothing
  | flow (word : String)
  | triggers (words : List String)
  deriving DecidableEq, Repr

/-- A walk as far as it has been asked for. -/
structure WalkDraft where
  flow : Option FlowKind := none
  triggers : List TriggerWord := []
  json : Bool := false
  held : Held := .nothing

namespace WalkDraft

/-- Read the values that have been taken. -/
def read (draft : WalkDraft) : Except ArgumentError WalkDraft :=
  match draft.held with
  | .nothing => .ok draft
  | .flow word =>
      match FlowKind.ofName? word with
      | some flow => .ok { draft with flow := some flow, held := .nothing }
      | none => .error (.unknownFlow word)
  | .triggers words => do
      let triggers ← words.mapM TriggerWord.ofText
      return { draft with
        triggers := draft.triggers ++ triggers
        held := .nothing }

/-- Take a value: the first one is the flow, the others are triggers. -/
def take (draft : WalkDraft) (word : String) :
    Except ArgumentError WalkDraft :=
  match draft.held with
  | .triggers words =>
      .ok { draft with held := .triggers (words ++ [word]) }
  | _ => do
      let draft ← draft.read
      return { draft with
        held := if draft.flow.isNone then .flow word else .triggers [word] }

/-- The walk that is asked for, once there are no more words. -/
def finish (draft : WalkDraft) : Except ArgumentError Request := do
  let draft ← draft.read
  match draft.flow with
  | some flow => return .walk flow draft.triggers draft.json
  | none => throw .noFlow

def takeAll (draft : WalkDraft) : List String → Except ArgumentError Request
  | [] => draft.finish
  | word :: rest =>
      match Word.of word with
      | .value text => do (← draft.take text).takeAll rest
      | .endOfOptions => do (← rest.foldlM take draft).finish
      | .option "--json" none => do
          let draft ← draft.read
          if draft.json then throw .repeatedJson
          else takeAll ({ draft with json := true }) rest
      | .option "--json" (some value) => throw (.jsonWithValue value)
      | .option name value =>
          if (Word.option name value).asksHelp then return .help
          else throw (.unexpected name)

end WalkDraft

/-! ## Other requests -/

/-- A request that no word but the one for help may follow. -/
def takeNone (request : Request) : List String → Except ArgumentError Request
  | [] => .ok request
  | word :: rest =>
      match Word.of word with
      | .value text => .error (.unexpected text)
      | .endOfOptions =>
          match rest with
          | [] => .ok request
          | extra :: _ => .error (.unexpected extra)
      | .option name value =>
          if (Word.option name value).asksHelp then .ok .help
          else .error (.unexpected name)

/-- Read the path behind the option for it, given the one that has been read
before. -/
def readPath (path : Option String) (held : Option (Option String)) :
    Except ArgumentError (Option String) :=
  match held with
  | none => .ok path
  | some none => .error .noPath
  | some (some text) =>
      if path.isSome then .error .repeatedPath
      else if text.isEmpty then .error .noPath
      else .ok (some text)

/-- Take the words that say where settings are written.  `held` is the option
with its value, if both or one of them have been taken and not read. -/
def takePath (path : Option String) (held : Option (Option String)) :
    List String → Except ArgumentError Request
  | [] => .config <$> readPath path held
  | word :: rest =>
      match Word.of word, held with
      | .value text, some none => takePath path (some (some text)) rest
      | .value text, _ => .error (.unexpected text)
      | .endOfOptions, _ =>
          match rest with
          | [] => .config <$> readPath path held
          | extra :: _ => .error (.unexpected extra)
      | .option "--write" value, _ => do
          let path ← readPath path held
          match value with
          | none => takePath path (some none) rest
          | some text =>
              let path ← readPath path (some (some text))
              takePath path none rest
      | .option name value, _ =>
          if (Word.option name value).asksHelp then .ok .help
          else .error (.unexpected name)

/-- What the words of a command line ask for.  The first one decides how the
others are taken. -/
def ofArguments : List String → Except ArgumentError Request
  | [] => .error .nothingAsked
  | word :: rest =>
      match Word.of word with
      | .value "walk" => WalkDraft.takeAll {} rest
      | .value "flows" => takeNone .flows rest
      | .value "config" => takePath none none rest
      | .value "help" => .ok .help
      | .value text => .error (.unknownCommand text)
      | .endOfOptions =>
          match rest with
          | [] => .error .nothingAsked
          | extra :: _ => .error (.unexpected extra)
      | .option name value =>
          if (Word.option name value).asksHelp then .ok .help
          else .error (.unexpected name)

end Request

end ScreenFlow
