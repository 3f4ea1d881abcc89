import Mathlib.Data.List.Dedup
import Mathlib.Data.List.Perm.Basic
import Mathlib.Data.List.Sort
import Mathlib.Data.String.Basic
import Signpost.Proofs.Dispatcher.Registrations

/-!
The list of what is registered. Every action and every method of a module stands in it once, however
often and in whatever spellings of the module it was registered, and the list is sorted. So it tells
neither the order of the registrations nor the order in which the tables are gone through.
-/

namespace Signpost

open ModuleName (normalize)

variable {α : Type}

/-! ### Entries -/

/-- What a handler is registered for: an action or a method in a module, by its canonical name. -/
inductive Entry where
  | action (module action : String)
  | method (module : String) (method : Method)
  deriving DecidableEq

namespace Entry

def module : Entry → String
  | action module _ | method module _ => module

def name : Entry → String
  | action m a => m ++ "::" ++ a
  | method m k => m ++ "::" ++ k.text

end Entry

def Registration.entry : Registration α → Entry
  | action m a _ => .action (normalize m) a
  | method m k _ => .method (normalize m) k

namespace Dispatcher

def entriesIn (module : String) (m : ModuleHandlers α) : List Entry :=
  m.actions.keys.map (.action module) ++ m.methods.keys.map (.method module)

def entries (d : Dispatcher α) : List Entry :=
  d.modules.toList.flatMap fun (module, m) => entriesIn module m

lemma mem_entriesIn {module : String} {m : ModuleHandlers α} {e : Entry} :
    e ∈ entriesIn module m ↔ (∃ a ∈ m.actions.keys, .action module a = e) ∨
      ∃ k ∈ m.methods.keys, .method module k = e := by
  simp [entriesIn]

lemma module_of_mem_entriesIn {module : String} {m : ModuleHandlers α} {e : Entry}
    (h : e ∈ entriesIn module m) : e.module = module := by
  rcases mem_entriesIn.mp h with ⟨a, -, rfl⟩ | ⟨k, -, rfl⟩ <;> rfl

lemma nodup_entriesIn (module : String) (m : ModuleHandlers α) : (entriesIn module m).Nodup := by
  refine List.nodup_append.mpr ⟨m.actions.nodup_keys.map ?_, m.methods.nodup_keys.map ?_, ?_⟩
  · rintro a b ⟨⟩
    rfl
  · rintro a b ⟨⟩
    rfl
  · intro e he e' he'
    obtain ⟨a, -, rfl⟩ := List.mem_map.mp he
    obtain ⟨k, -, rfl⟩ := List.mem_map.mp he'
    rintro ⟨⟩

lemma nodup_entries (d : Dispatcher α) : d.entries.Nodup := by
  refine List.nodup_flatMap.mpr ⟨fun p _ => nodup_entriesIn p.1 p.2, ?_⟩
  have hmodules : d.modules.toList.Pairwise fun p q => p.1 ≠ q.1 :=
    List.pairwise_map.mp d.modules.nodup_keys
  -- the modules of the entries are those under which they are kept
  refine hmodules.imp fun hne e he he' => hne ?_
  exact (module_of_mem_entriesIn he).symm.trans (module_of_mem_entriesIn he')

lemma mem_entries {d : Dispatcher α} {e : Entry} :
    e ∈ d.entries ↔ e ∈ entriesIn e.module (d.handlersAt e.module) := by
  have hiff : e ∈ d.entries ↔ ∃ m, d.modules.get? e.module = some m ∧ e ∈ entriesIn e.module m := by
    rw [entries, List.mem_flatMap]
    constructor
    · rintro ⟨⟨module, m⟩, hm, he⟩
      obtain rfl := module_of_mem_entriesIn he
      exact ⟨m, OrderedMap.mem_toList_iff.mp hm, he⟩
    · rintro ⟨m, hm, he⟩
      exact ⟨(e.module, m), OrderedMap.mem_toList_iff.mpr hm, he⟩
  rw [hiff, handlersAt]
  rcases d.modules.get? e.module with _ | m
  · have hempty : entriesIn e.module (⟨∅, ∅⟩ : ModuleHandlers α) = [] := rfl
    simp [hempty]
  · simp

/-! ### Registering -/

lemma mem_entries_modifyModule {d : Dispatcher α} {module : String}
    {f : ModuleHandlers α → ModuleHandlers α} {new : Entry} (hnew : new.module = normalize module)
    (hf : ∀ m e, e ∈ entriesIn (normalize module) (f m) ↔
      e = new ∨ e ∈ entriesIn (normalize module) m) (e : Entry) :
    e ∈ (d.modifyModule module f).entries ↔ e = new ∨ e ∈ d.entries := by
  rw [mem_entries, mem_entries, handlersAt_modifyModule]
  by_cases h : normalize module = e.module
  · rw [if_pos h, ← h]
    exact hf _ e
  · have hne : e ≠ new := by
      rintro rfl
      exact h hnew.symm
    simp [h, hne]

lemma mem_entries_step (d : Dispatcher α) (t : Registration α) (e : Entry) :
    e ∈ (step d t).entries ↔ e = t.entry ∨ e ∈ d.entries := by
  cases t with
  | action module action handler =>
    rw [step, register, Registration.entry]
    refine mem_entries_modifyModule ?_ (fun m e => ?_) e
    · rfl
    · simp only [mem_entriesIn, OrderedMap.mem_keys_insert, or_and_right, exists_or,
        exists_eq_left, or_assoc]
      rw [eq_comm]
  | method module method handler =>
    rw [step, registerMethod, Registration.entry]
    refine mem_entries_modifyModule ?_ (fun m e => ?_) e
    · rfl
    · simp only [mem_entriesIn, OrderedMap.mem_keys_insert, or_and_right, exists_or,
        exists_eq_left]
      rw [eq_comm, or_left_comm]

lemma mem_entries_run (steps : List (Registration α)) (e : Entry) :
    e ∈ (run steps).entries ↔ e ∈ steps.map Registration.entry := by
  induction steps using List.reverseRecOn with
  | nil => rfl
  | append_singleton steps t ih =>
    rw [run_concat, mem_entries_step, ih, List.map_append, List.mem_append, List.map_singleton,
      List.mem_singleton, or_comm]

/-! ### Listing -/

/-- The names of all that is registered, as they are met by someone who goes through the modules,
and in each module through the actions and then the methods, in any order. -/
def Gathered (d : Dispatcher α) (names : List String) : Prop :=
  ∃ (modules : List (String × ModuleHandlers α)) (actions : String → List String)
    (methods : String → List Method),
    modules.Perm d.modules.toList ∧
    (∀ p ∈ modules, (actions p.1).Perm p.2.actions.keys ∧ (methods p.1).Perm p.2.methods.keys) ∧
    names = modules.flatMap fun p =>
      (actions p.1 ++ (methods p.1).map Method.text).map fun name => p.1 ++ "::" ++ name

lemma namesIn_eq (module : String) (m : ModuleHandlers α) :
    namesIn module m = (entriesIn module m).map Entry.name := by
  simp [namesIn, entriesIn, Entry.name, Function.comp_def]

lemma flatMap_namesIn (d : Dispatcher α) :
    (d.modules.toList.flatMap fun (module, m) => namesIn module m) = d.entries.map Entry.name := by
  simp only [entries, List.map_flatMap, namesIn_eq]

lemma handlerNames_eq (d : Dispatcher α) :
    d.handlerNames = (d.entries.map Entry.name).mergeSort fun a b => a ≤ b := by
  rw [handlerNames, flatMap_namesIn]

lemma gathered_of_perm {d : Dispatcher α} {modules : List (String × ModuleHandlers α)}
    (h : modules.Perm d.modules.toList) :
    d.Gathered (modules.flatMap fun (module, m) => namesIn module m) := by
  have hat : ∀ p ∈ modules, d.handlersAt p.1 = p.2 := fun p hp => by
    rw [handlersAt, OrderedMap.mem_toList_iff.mp (h.subset hp), Option.getD_some]
  refine ⟨modules, fun name => (d.handlersAt name).actions.keys,
    fun name => (d.handlersAt name).methods.keys, h, fun p hp => ?_, ?_⟩
  · simp only [hat p hp]
    exact ⟨.refl _, .refl _⟩
  · refine List.flatMap_congr fun p hp => ?_
    simp only [hat p hp]
    rfl

lemma Gathered.perm {d : Dispatcher α} {names : List String} (h : d.Gathered names) :
    names.Perm (d.entries.map Entry.name) := by
  obtain ⟨modules, actions, methods, hmodules, hkeys, rfl⟩ := h
  rw [← flatMap_namesIn]
  refine hmodules.flatMap fun p hp => ?_
  obtain ⟨hactions, hmethods⟩ := hkeys p hp
  exact (hactions.append (hmethods.map Method.text)).map _

lemma pairwise_mergeSort_names (names : List String) :
    (names.mergeSort fun a b => a ≤ b).Pairwise (· ≤ ·) :=
  List.pairwise_mergeSort' _ _

lemma mergeSort_eq_of_perm {names names' : List String} (h : names.Perm names') :
    names.mergeSort (fun a b => a ≤ b) = names'.mergeSort fun a b => a ≤ b :=
  List.Perm.eq_of_pairwise (fun _ _ _ _ => le_antisymm) (pairwise_mergeSort_names names)
    (pairwise_mergeSort_names names')
    ((List.mergeSort_perm names _).trans (h.trans (List.mergeSort_perm names' _).symm))

lemma perm_entries_run {steps : List (Registration α)} {l : List Entry} (hl : l.Nodup)
    (h : ∀ e, e ∈ l ↔ e ∈ steps.map Registration.entry) : (run steps).entries.Perm l :=
  (List.perm_ext_iff_of_nodup (nodup_entries _) hl).mpr fun e =>
    (mem_entries_run steps e).trans (h e).symm

/-- **Everything is listed once.** After any registrations the list of names is sorted, and it has one
name for each action and for each method that is registered in a module, whatever spellings of the
module were used. So registrations for the same actions and methods give the same list, in whatever
order and however often they are made, and in whatever order the names are gathered. -/
theorem handlers_listed_once (steps : List (Registration α)) :
    (run steps).handlerNames.Pairwise (· ≤ ·) ∧
    (run steps).handlerNames.Perm ((steps.map Registration.entry).dedup.map Entry.name) ∧
    (∀ steps' : List (Registration α),
      (∀ e, e ∈ steps'.map Registration.entry ↔ e ∈ steps.map Registration.entry) →
      (run steps').handlerNames = (run steps).handlerNames) ∧
    ∀ names, (run steps).Gathered names →
      names.mergeSort (fun a b => a ≤ b) = (run steps).handlerNames := by
  refine ⟨?_, ?_, fun steps' h => ?_, fun names h => ?_⟩
  · rw [handlerNames_eq]
    exact pairwise_mergeSort_names _
  · rw [handlerNames_eq]
    refine (List.mergeSort_perm ..).trans (List.Perm.map _ ?_)
    exact perm_entries_run (List.nodup_dedup _) fun e => List.mem_dedup
  · have hperm : (run steps').entries.Perm (run steps).entries :=
      perm_entries_run (nodup_entries _) fun e => (mem_entries_run steps e).trans (h e).symm
    rw [handlerNames_eq, handlerNames_eq, mergeSort_eq_of_perm (hperm.map _)]
  · rw [handlerNames_eq, mergeSort_eq_of_perm h.perm]

/-- The registrations of `respelled` in another order and other spellings, one of them repeated. -/
def reordered : List (Registration String) :=
  [.action "orders" "list" fun _ => .ok "", .method "blog_post" .put fun _ => .ok "",
    .action "orders!" "list" fun r => .error r.uri, .action "_blog_post" "put" fun _ => .ok "put"]

/-- An action and a method of one name in a module are listed both. -/
theorem handlers_listed_once_reordered :
    (run respelled).handlerNames.Perm ["Blog::Post::put", "Blog::Post::PUT", "Orders::list"] ∧
      (run reordered).handlerNames = (run respelled).handlerNames ∧
      ∃ names, (run respelled).Gathered names ∧
        names = ["Orders::list", "Blog::Post::put", "Blog::Post::PUT"] ∧
        names.mergeSort (fun a b => a ≤ b) = (run respelled).handlerNames := by
  have hentries : (respelled.map Registration.entry).dedup.map Entry.name =
      ["Blog::Post::put", "Blog::Post::PUT", "Orders::list"] := by decide +kernel
  have hto : ∀ e ∈ reordered.map Registration.entry, e ∈ respelled.map Registration.entry := by
    decide +kernel
  have hfrom : ∀ e ∈ respelled.map Registration.entry, e ∈ reordered.map Registration.entry := by
    decide +kernel
  have hgathered : (run respelled).Gathered _ := gathered_of_perm (List.reverse_perm _)
  refine ⟨hentries ▸ (handlers_listed_once respelled).2.1,
    (handlers_listed_once respelled).2.2.1 reordered fun e => ⟨hto e, hfrom e⟩,
    _, hgathered, by decide +kernel, (handlers_listed_once respelled).2.2.2 _ hgathered⟩

end Dispatcher

end Signpost
