import Signpost.Request
import Signpost.Route.Display

/-!
Dispatchers: handlers by module and action, or by module and method. A request is dispatched by
its parameters `module` and `action`; if the action is the request's own method, in any case, the
handler for this method is run, and else the one for the action.

Modules go by a canonical name. Only ASCII letters, digits and underscores count in a name, each
word between underscores gets a capital, and the words become path segments.
-/

namespace Signpost.ModuleName

def isKept (c : Char) : Bool := c.isAlphanum || c == '_'

/-- The words of a name: the kept characters between underscores, empty words left out. -/
def words (name : List Char) : List (List Char) :=
  (Text.splitAll '_' (name.filter isKept)).filter (· ≠ [])

def capitalize : List Char → List Char
  | [] => []
  | c :: s => c.toUpper :: s

/-- The canonical form under which handlers of a module are kept and looked up. -/
def normalize (name : String) : String :=
  String.ofList (Text.joinWith "::".toList ((words name.toList).map capitalize))

end Signpost.ModuleName

namespace Signpost

/-- A function that answers a request with a reply, or fails with an explanation. -/
abbrev Handler (α : Type) := Request → Except String α

/-- The handlers of one module. -/
structure ModuleHandlers (α : Type) where
  actions : OrderedMap String (Handler α)
  methods : OrderedMap Method (Handler α)

/-- Why a request was not answered. Only in the case `failed` was a handler run. -/
inductive DispatchError where
  | missingTarget
  | moduleNotFound (module : String)
  | actionNotFound (module action : String)
  | failed (module action explanation : String)
  deriving DecidableEq, Repr

/-- The wording of an error; the handler's own explanation is not part of it. -/
def DispatchError.message : DispatchError → String
  | missingTarget => "request parameters do not name a module and an action"
  | moduleNotFound module => "module '" ++ module ++ "' not found"
  | actionNotFound module action =>
    "module '" ++ module ++ "' does not have a callable handler '" ++ action ++ "'"
  | failed module action _ => "handler '" ++ module ++ "::" ++ action ++ "' failed"

/-- Handlers by normalised module name, in the order in which modules were first registered. -/
structure Dispatcher (α : Type) where
  modules : OrderedMap String (ModuleHandlers α)

/-- A handler that was found, with the normalised name of its module and the action or method. -/
structure Target (α : Type) where
  module : String
  action : String
  handler : Handler α

def Target.run {α : Type} (t : Target α) (request : Request) : Except DispatchError α :=
  match t.handler request with
  | .ok reply => .ok reply
  | .error explanation => .error (.failed t.module t.action explanation)

/-- What came of a request: the reply, or why there is none, and the handlers that were run. -/
structure Dispatched (α : Type) where
  reply : Except DispatchError α
  ran : List (Target α)

/-- Runs the handler on a request, and tells that it was run. -/
def Target.runNoting {α : Type} (t : Target α) (request : Request) : Dispatched α :=
  ⟨t.run request, [t]⟩

namespace Dispatcher

variable {α : Type}

def empty : Dispatcher α := ⟨∅⟩

instance : EmptyCollection (Dispatcher α) := ⟨empty⟩

/-- What is registered for a module, in whatever spelling. -/
def handlersOf? (d : Dispatcher α) (module : String) : Option (ModuleHandlers α) :=
  d.modules.get? (ModuleName.normalize module)

def modifyModule (d : Dispatcher α) (module : String)
    (f : ModuleHandlers α → ModuleHandlers α) : Dispatcher α :=
  ⟨d.modules.insert (ModuleName.normalize module) (f ((d.handlersOf? module).getD ⟨∅, ∅⟩))⟩

def register (d : Dispatcher α) (module action : String) (handler : Handler α) : Dispatcher α :=
  d.modifyModule module fun m => { m with actions := m.actions.insert action handler }

def registerMethod (d : Dispatcher α) (module : String) (method : Method) (handler : Handler α) :
    Dispatcher α :=
  d.modifyModule module fun m => { m with methods := m.methods.insert method handler }

def namesIn (module : String) (m : ModuleHandlers α) : List String :=
  (m.actions.keys ++ m.methods.keys.map Method.text).map fun action => module ++ "::" ++ action

/-- The names of all that is registered, sorted. -/
def handlerNames (d : Dispatcher α) : List String :=
  (d.modules.toList.flatMap fun (module, m) => namesIn module m).mergeSort fun a b => a ≤ b

def findAction (d : Dispatcher α) (module action : String) : Except DispatchError (Target α) :=
  let name := ModuleName.normalize module
  match d.handlersOf? module with
  | none => .error (.moduleNotFound name)
  | some m =>
    match m.actions.get? action with
    | none => .error (.actionNotFound name action)
    | some handler => .ok ⟨name, action, handler⟩

def findMethod (d : Dispatcher α) (module : String) (method : Method) :
    Except DispatchError (Target α) :=
  let name := ModuleName.normalize module
  match d.handlersOf? module with
  | none => .error (.moduleNotFound name)
  | some m =>
    match m.methods.get? method with
    | none => .error (.actionNotFound name method.text)
    | some handler => .ok ⟨name, method.text, handler⟩

/-- The handler for a request, by its parameters. -/
def findTarget (d : Dispatcher α) (request : Request) : Except DispatchError (Target α) :=
  match request.get? "module", request.get? "action" with
  | some module, some action =>
    if Text.sameIgnoringCase action request.method.text then d.findMethod module request.method
    else d.findAction module action
  | _, _ => .error .missingTarget

def dispatch (d : Dispatcher α) (module action : String) (request : Request) :
    Except DispatchError α :=
  match d.findAction module action with
  | .ok target => target.run request
  | .error e => .error e

/-- Runs the handler for a request, by its parameters. -/
def dispatchRequest (d : Dispatcher α) (request : Request) : Except DispatchError α :=
  match d.findTarget request with
  | .ok target => target.run request
  | .error e => .error e

/-- Dispatches as `dispatch` does, and tells which handlers were run. -/
def dispatchNoting (d : Dispatcher α) (module action : String) (request : Request) :
    Dispatched α :=
  match d.findAction module action with
  | .ok target => target.runNoting request
  | .error e => ⟨.error e, []⟩

/-- Dispatches as `dispatchRequest` does, and tells which handlers were run. -/
def dispatchRequestNoting (d : Dispatcher α) (request : Request) : Dispatched α :=
  match d.findTarget request with
  | .ok target => target.runNoting request
  | .error e => ⟨.error e, []⟩

theorem reply_dispatchNoting (d : Dispatcher α) (module action : String) (request : Request) :
    (d.dispatchNoting module action request).reply = d.dispatch module action request := by
  unfold dispatchNoting dispatch
  split <;> rfl

theorem reply_dispatchRequestNoting (d : Dispatcher α) (request : Request) :
    (d.dispatchRequestNoting request).reply = d.dispatchRequest request := by
  unfold dispatchRequestNoting dispatchRequest
  split <;> rfl

/-- A dispatcher as a line of text that tells the names of all that is registered. -/
def display (d : Dispatcher α) : String :=
  Quoted.fields "Dispatcher" [("handlers", Quoted.list (d.handlerNames.map Quoted.quote))]

end Dispatcher

end Signpost
