import Mathlib.Data.List.Induction
import Mathlib.Tactic.Common
import Mathlib.Tactic.Lemma
import Signpost.Proofs.Request.Dispatch

/-!
Which handler a request runs. A dispatcher is made by registrations, and of those for the same
action, or the same method, of a module only the last one counts. A request runs this handler and no
other; where there is none, no handler is run.
-/

namespace Signpost

open ModuleName (normalize)

variable {α : Type}

/-- One registration of a handler, for an action of a module or for a method. -/
inductive Registration (α : Type) where
  | action (module action : String) (handler : Handler α)
  | method (module : String) (method : Method) (handler : Handler α)

namespace Registration

def module : Registration α → String
  | action module _ _ | method module _ _ => module

def actionHandler? (module action : String) : Registration α → Option (Handler α)
  | .action m a handler =>
    if normalize m = normalize module ∧ a = action then some handler else none
  | .method .. => none

def methodHandler? (module : String) (method : Method) : Registration α → Option (Handler α)
  | .action .. => none
  | .method m k handler =>
    if normalize m = normalize module ∧ k = method then some handler else none

end Registration

namespace Dispatcher

/-! ### One registration -/

def step (d : Dispatcher α) : Registration α → Dispatcher α
  | .action module action handler => d.register module action handler
  | .method module method handler => d.registerMethod module method handler

/-- What is kept under a canonical name, nothing at all if the name is not there. -/
def handlersAt (d : Dispatcher α) (name : String) : ModuleHandlers α :=
  (d.modules.get? name).getD ⟨∅, ∅⟩

/-- What is registered for a module, nothing at all if the module is not known. -/
def handlersIn (d : Dispatcher α) (module : String) : ModuleHandlers α :=
  (d.handlersOf? module).getD ⟨∅, ∅⟩

lemma handlersOf?_modifyModule (d : Dispatcher α) (name : String)
    (f : ModuleHandlers α → ModuleHandlers α) (module : String) :
    (d.modifyModule name f).handlersOf? module =
      if normalize name = normalize module then some (f (d.handlersIn name))
      else d.handlersOf? module :=
  OrderedMap.get?_insert ..

lemma handlersAt_modifyModule (d : Dispatcher α) (module : String)
    (f : ModuleHandlers α → ModuleHandlers α) (name : String) :
    (d.modifyModule module f).handlersAt name =
      if normalize module = name then f (d.handlersAt name) else d.handlersAt name := by
  rw [handlersAt, modifyModule, OrderedMap.get?_insert]
  split
  · rename_i h
    rw [← h]
    rfl
  · rfl

lemma handlersIn_modifyModule (d : Dispatcher α) (name : String)
    (f : ModuleHandlers α → ModuleHandlers α) (module : String) :
    (d.modifyModule name f).handlersIn module =
      if normalize name = normalize module then f (d.handlersIn module)
      else d.handlersIn module :=
  handlersAt_modifyModule d name f (normalize module)

lemma isSome_handlersOf?_step (d : Dispatcher α) (t : Registration α) (module : String) :
    ((step d t).handlersOf? module).isSome = true ↔
      (d.handlersOf? module).isSome = true ∨ normalize t.module = normalize module := by
  have hmodify : ∀ f : ModuleHandlers α → ModuleHandlers α,
      ((d.modifyModule t.module f).handlersOf? module).isSome = true ↔
        (d.handlersOf? module).isSome = true ∨ normalize t.module = normalize module := by
    intro f
    rw [handlersOf?_modifyModule]
    by_cases h : normalize t.module = normalize module <;> simp [h]
  cases t with
  | action m a handler => exact hmodify _
  | method m k handler => exact hmodify _

lemma get?_actions_step (d : Dispatcher α) (t : Registration α) (module action : String) :
    ((step d t).handlersIn module).actions.get? action =
      (t.actionHandler? module action).or ((d.handlersIn module).actions.get? action) := by
  cases t with
  | action m a handler =>
    rw [step, register, handlersIn_modifyModule, Registration.actionHandler?]
    by_cases h : normalize m = normalize module
    · by_cases ha : a = action <;> simp [h, ha, OrderedMap.get?_insert]
    · simp [h]
  | method m k handler =>
    rw [step, registerMethod, handlersIn_modifyModule, Registration.actionHandler?]
    by_cases h : normalize m = normalize module <;> simp [h]

lemma get?_methods_step (d : Dispatcher α) (t : Registration α) (module : String)
    (method : Method) :
    ((step d t).handlersIn module).methods.get? method =
      (t.methodHandler? module method).or ((d.handlersIn module).methods.get? method) := by
  cases t with
  | action m a handler =>
    rw [step, register, handlersIn_modifyModule, Registration.methodHandler?]
    by_cases h : normalize m = normalize module <;> simp [h]
  | method m k handler =>
    rw [step, registerMethod, handlersIn_modifyModule, Registration.methodHandler?]
    by_cases h : normalize m = normalize module
    · by_cases hk : k = method <;> simp [h, hk, OrderedMap.get?_insert]
    · simp [h]

/-! ### Any number of registrations -/

def run (steps : List (Registration α)) : Dispatcher α := steps.foldl step ∅

lemma run_concat (steps : List (Registration α)) (t : Registration α) :
    run (steps ++ [t]) = step (run steps) t := by
  simp [run, List.foldl_append]

/-- The handler of the last registration for the action of the module. -/
def latestAction? (steps : List (Registration α)) (module action : String) :
    Option (Handler α) :=
  steps.reverse.findSome? (Registration.actionHandler? module action)

/-- The handler of the last registration for the method in the module. -/
def latestMethod? (steps : List (Registration α)) (module : String) (method : Method) :
    Option (Handler α) :=
  steps.reverse.findSome? (Registration.methodHandler? module method)

lemma isSome_handlersOf?_run (steps : List (Registration α)) (module : String) :
    ((run steps).handlersOf? module).isSome = true ↔
      ∃ t ∈ steps, normalize t.module = normalize module := by
  induction steps using List.reverseRecOn with
  | nil => exact iff_of_false Bool.false_ne_true (by simp)
  | append_singleton steps t ih =>
    rw [run_concat, isSome_handlersOf?_step, ih]
    simp [or_and_right, exists_or]

/-- What each registration sets anew is found as the last registration has set it. -/
lemma found_run (found? : Dispatcher α → Option (Handler α))
    (set? : Registration α → Option (Handler α)) (hempty : found? ∅ = none)
    (hstep : ∀ d t, found? (step d t) = (set? t).or (found? d)) (steps : List (Registration α)) :
    found? (run steps) = steps.reverse.findSome? set? := by
  induction steps using List.reverseRecOn with
  | nil => exact hempty
  | append_singleton steps t ih =>
    rw [run_concat, hstep, ih, findSome?_reverse_concat]

lemma get?_actions_run (steps : List (Registration α)) (module action : String) :
    ((run steps).handlersIn module).actions.get? action = latestAction? steps module action :=
  found_run (fun d => (d.handlersIn module).actions.get? action) _ rfl
    (fun d t => get?_actions_step d t module action) steps

lemma get?_methods_run (steps : List (Registration α)) (module : String) (method : Method) :
    ((run steps).handlersIn module).methods.get? method = latestMethod? steps module method :=
  found_run (fun d => (d.handlersIn module).methods.get? method) _ rfl
    (fun d t => get?_methods_step d t module method) steps

/-! ### Finding a handler -/

/-- What comes of a request for a name in a module if this is the handler for it. Without a handler
nothing is run, and it counts whether the module was ever named. -/
def dispatched (steps : List (Registration α)) (module name : String)
    (handler? : Option (Handler α)) (request : Request) : Dispatched α :=
  match handler? with
  | some handler =>
    ⟨match handler request with
      | .ok reply => .ok reply
      | .error explanation => .error (.failed (normalize module) name explanation),
      [⟨normalize module, name, handler⟩]⟩
  | none =>
    if ∃ t ∈ steps, normalize t.module = normalize module
    then ⟨.error (.actionNotFound (normalize module) name), []⟩
    else ⟨.error (.moduleNotFound (normalize module)), []⟩

lemma dispatched_eq (steps : List (Registration α)) (module name : String) (request : Request)
    (handlerIn : ModuleHandlers α → Option (Handler α)) (hnone : handlerIn ⟨∅, ∅⟩ = none) :
    dispatched steps module name (handlerIn ((run steps).handlersIn module)) request =
      match (match (run steps).handlersOf? module with
        | none => .error (.moduleNotFound (normalize module))
        | some m =>
          match handlerIn m with
          | none => .error (.actionNotFound (normalize module) name)
          | some handler => .ok ⟨normalize module, name, handler⟩ :
            Except DispatchError (Target α)) with
      | .ok target => target.runNoting request
      | .error e => ⟨.error e, []⟩ := by
  -- whether the module is known decides which error it is
  have hknown := isSome_handlersOf?_run steps module
  rw [handlersIn]
  rcases hd : (run steps).handlersOf? module with _ | m <;> rw [hd] at hknown
  · have hnot : ¬ ∃ t ∈ steps, normalize t.module = normalize module := fun h => by
      simpa using hknown.mpr h
    rw [Option.getD_none, hnone, dispatched, if_neg hnot]
  · have hnamed : ∃ t ∈ steps, normalize t.module = normalize module := hknown.mp rfl
    rw [Option.getD_some]
    rcases hm : handlerIn m with _ | handler
    · simp only [hm, dispatched, if_pos hnamed]
    · simp only [hm]
      rfl

lemma dispatchNoting_run (steps : List (Registration α)) (module action : String)
    (request : Request) :
    (run steps).dispatchNoting module action request =
      dispatched steps module action (latestAction? steps module action) request := by
  rw [← get?_actions_run, dispatched_eq steps module action request (·.actions.get? action) rfl]
  rfl

lemma dispatchRequestNoting_of_method (steps : List (Registration α)) {request : Request}
    {module action : String} (hm : request.get? "module" = some module)
    (ha : request.get? "action" = some action)
    (hsame : Text.sameIgnoringCase action request.method.text = true) :
    (run steps).dispatchRequestNoting request =
      dispatched steps module request.method.text (latestMethod? steps module request.method)
        request := by
  rw [← get?_methods_run, dispatched_eq steps module request.method.text request
    (·.methods.get? request.method) rfl]
  simp only [dispatchRequestNoting, findTarget, hm, ha, hsame, if_true]
  rfl

lemma dispatchRequestNoting_of_action (d : Dispatcher α) {request : Request}
    {module action : String} (hm : request.get? "module" = some module)
    (ha : request.get? "action" = some action)
    (hother : Text.sameIgnoringCase action request.method.text = false) :
    d.dispatchRequestNoting request = d.dispatchNoting module action request := by
  simp [dispatchRequestNoting, dispatchNoting, findTarget, hm, ha, hother]

end Dispatcher

/-! ### Requests -/

namespace Request

/-- The request has no value, or the empty one, for a parameter. -/
def Lacks (r : Request) (name : String) : Prop :=
  ∀ value, r.params.get? name = some value → value = ""

lemma get?_eq_none_iff {r : Request} {name : String} (hname : name ∉ ["method", "path", "uri"]) :
    r.get? name = none ↔ r.Lacks name := by
  simp only [List.mem_cons, List.not_mem_nil, or_false, not_or] at hname
  simp [get?, hname, Lacks, Option.filter_eq_none_iff]

end Request

namespace Dispatcher

lemma dispatchRequestNoting_of_lacks (d : Dispatcher α) {request : Request}
    (h : request.Lacks "module" ∨ request.Lacks "action") :
    d.dispatchRequestNoting request = ⟨.error .missingTarget, []⟩ := by
  rw [← Request.get?_eq_none_iff (by decide), ← Request.get?_eq_none_iff (by decide)] at h
  have hfind : d.findTarget request = .error .missingTarget := by
    rcases h with h | h
    · simp [findTarget, h]
    · rcases hm : request.get? "module" with _ | module <;> simp [findTarget, h, hm]
  rw [dispatchRequestNoting, hfind]

lemma exists_get?_of_not_lacks {request : Request}
    (h : ¬ (request.Lacks "module" ∨ request.Lacks "action")) :
    ∃ module action, request.get? "module" = some module ∧
      request.get? "action" = some action := by
  rw [← Request.get?_eq_none_iff (by decide), ← Request.get?_eq_none_iff (by decide), not_or] at h
  obtain ⟨module, hm⟩ := Option.ne_none_iff_exists'.mp h.1
  obtain ⟨action, ha⟩ := Option.ne_none_iff_exists'.mp h.2
  exact ⟨module, action, hm, ha⟩

/-- **The handler that runs.** An action of a module is dispatched to the handler of its last
registration, whatever the spelling of the module; this handler is run and no other, and if there is
none, nothing is run. A request whose module or action is missing is refused without running
anything. Of other requests those whose action is their own method run the handler that was last
registered for this method, and the others are dispatched to their action. -/
theorem dispatch_runs_latest (steps : List (Registration α)) (request : Request) :
    (∀ module action, (run steps).dispatchNoting module action request =
      dispatched steps module action (latestAction? steps module action) request) ∧
    ((run steps).dispatchRequest request = .error .missingTarget ↔
      request.Lacks "module" ∨ request.Lacks "action") ∧
    (request.Lacks "module" ∨ request.Lacks "action" →
      (run steps).dispatchRequestNoting request = ⟨.error .missingTarget, []⟩) ∧
    (∀ module action, request.params.get? "module" = some module → module ≠ "" →
      request.params.get? "action" = some action → action ≠ "" →
      (run steps).dispatchRequestNoting request =
        if Text.sameIgnoringCase action request.method.text then
          dispatched steps module request.method.text
            (latestMethod? steps module request.method) request
        else dispatched steps module action (latestAction? steps module action) request) ∧
    (∀ module action, (run steps).dispatch module action request =
      ((run steps).dispatchNoting module action request).reply) ∧
    (run steps).dispatchRequest request = ((run steps).dispatchRequestNoting request).reply := by
  refine ⟨fun module action => dispatchNoting_run steps module action request, ⟨fun h => ?_,
    fun h => ?_⟩, dispatchRequestNoting_of_lacks _, fun module action hm hnem ha hnea => ?_,
    fun module action => (reply_dispatchNoting ..).symm, (reply_dispatchRequestNoting ..).symm⟩
  · by_contra hgiven
    obtain ⟨module, action, hm, ha⟩ := exists_get?_of_not_lacks hgiven
    exact dispatchRequest_ne_missingTarget _ hm ha h
  · rw [← reply_dispatchRequestNoting, dispatchRequestNoting_of_lacks _ h]
  · have hgm := Request.get?_of_params hm hnem (by decide)
    have hga := Request.get?_of_params ha hnea (by decide)
    split
    · rename_i hsame
      exact dispatchRequestNoting_of_method steps hgm hga hsame
    · rename_i hother
      rw [dispatchRequestNoting_of_action _ hgm hga (by simpa using hother), dispatchNoting_run]

/-- A module in four spellings, with an action that has the name of a method. -/
def respelled : List (Registration String) :=
  [.action "blog_post" "put" fun _ => .ok "action", .method "Blog_Post" .put fun _ => .ok "first",
    .method "blog__post" .put fun r => .error r.path, .action "orders" "list" fun _ => .ok "list"]

theorem dispatch_runs_latest_respelled :
    let request := (Request.new .put "/posts/").addParams
      (.ofList [("module", "blog_post!"), ("action", "Put")])
    let refused := Request.new .put "/posts/"
    request.params.get? "module" = some "blog_post!" ∧
      request.params.get? "action" = some "Put" ∧
      (∃ handler, latestMethod? respelled "blog_post!" .put = some handler ∧
        (run respelled).dispatchRequestNoting request =
          ⟨.error (.failed "Blog::Post" "PUT" "/posts"), [⟨"Blog::Post", "PUT", handler⟩]⟩) ∧
      refused.Lacks "module" ∧
      (run respelled).dispatchRequestNoting refused = ⟨.error .missingTarget, []⟩ := by
  intro request refused
  have hm : request.params.get? "module" = some "blog_post!" := by decide +kernel
  have ha : request.params.get? "action" = some "Put" := by decide +kernel
  have hlacks : refused.Lacks "module" := fun value h => by cases h
  have hlatest : latestMethod? respelled "blog_post!" .put = some fun r => .error r.path := by
    have hsame : normalize "blog__post" = normalize "blog_post!" := by decide +kernel
    simp [latestMethod?, respelled, List.findSome?_cons, Registration.methodHandler?, hsame]
  have hname : normalize "blog_post!" = "Blog::Post" := by decide +kernel
  have hpath : request.path = "/posts" := by decide +kernel
  have hmethod : Text.sameIgnoringCase "Put" request.method.text = true := by decide +kernel
  have hrun := (dispatch_runs_latest respelled request).2.2.2.1 _ _ hm (by decide) ha (by decide)
  rw [if_pos hmethod] at hrun
  refine ⟨hm, ha, ⟨_, hlatest, hrun.trans ?_⟩, hlacks,
    (dispatch_runs_latest respelled refused).2.2.1 (.inl hlacks)⟩
  have hput : request.method = .put := rfl
  simp only [hput, hlatest, dispatched, hname, hpath]
  rfl

/-- **A module that was never named** is reported as such to a request whose action is its own
method: it is not the method that is not found. -/
theorem unknown_module_of_method :
    let request := (Request.new .get "/").addParams
      (.ofList [("module", "users"), ("action", "get")])
    let d : Dispatcher String := run []
    latestMethod? ([] : List (Registration String)) "users" request.method = none ∧
      Text.sameIgnoringCase "get" request.method.text = true ∧
      d.dispatchRequest request = .error (.moduleNotFound "Users") ∧
      d.dispatchRequest request ≠ .error (.actionNotFound "Users" "GET") := by
  intro request d
  have hrequest : d.dispatchRequest request = .error (.moduleNotFound "Users") := by
    have hm : request.get? "module" = some "users" := by decide +kernel
    have ha : request.get? "action" = some "get" := by decide +kernel
    have hsame : Text.sameIgnoringCase "get" request.method.text = true := by decide +kernel
    have hname : normalize "users" = "Users" := by decide +kernel
    rw [dispatchRequest_of_method d hm ha hsame, hname]
    rfl
  refine ⟨rfl, by decide, hrequest, ?_⟩
  rw [hrequest]
  simp

end Dispatcher

end Signpost
