import Signpost.Command.Run
import Signpost.Proofs.Json.Lines
import Signpost.Proofs.OrderedMap
import Signpost.Proofs.Table.Default
import Signpost.Proofs.Text.Slice

/-!
Commands and the library. A command succeeds just when each of the library's functions that it calls
does, and what it prints tells their answer: a match can be read back from the document printed for
it, and a URL is printed as it is, behind a slash. Nothing is printed before all of them have
succeeded.
-/

namespace Signpost

/-! ### Strict methods -/

namespace Environment

/-- A value that turns a switch on: one of four words in any case, with blanks around it or not. -/
def SwitchesOn (value : String) : Prop :=
  ∃ before word after, value.toList = before ++ (word ++ after) ∧
    (∀ c ∈ before, Unicode.isBlank c = true) ∧ (∀ c ∈ after, Unicode.isBlank c = true) ∧
    Text.lowerAscii (String.ofList word) ∈ ["1", "true", "yes", "on"]

lemma isBlank_toLower : ∀ c : Char, Unicode.isBlank c.toLower = Unicode.isBlank c :=
  Text.char_cases (by decide) fun _ _ _ hl => congrArg Unicode.isBlank hl

/-- There are no blanks in the words that turn a switch on, so nothing of them is trimmed. -/
lemma trimWhile_isBlank_word {word : List Char}
    (h : Text.lowerAscii (String.ofList word) ∈ ["1", "true", "yes", "on"]) :
    Text.trimWhile Unicode.isBlank word = word := by
  have hwords : ∀ w ∈ ["1", "true", "yes", "on"], w.toList.any Unicode.isBlank = false := by
    decide +kernel
  have hword : ∀ c ∈ word, Unicode.isBlank c = false := fun c hc => by
    have hlower : c.toLower ∈ (Text.lowerAscii (String.ofList word)).toList := by
      rw [Text.lowerAscii, String.toList_ofList, String.toList_ofList]
      exact List.mem_map_of_mem hc
    rw [← isBlank_toLower]
    simpa using List.any_eq_false.mp (hwords _ h) _ hlower
  exact Text.trimWhile_eq_self (fun c hc => hword c (List.mem_of_mem_head? hc))
    fun c hc => hword c (List.mem_reverse.mp (List.mem_of_mem_head? hc))

lemma readSwitch_eq_true_iff {value : String} :
    readSwitch value = some true ↔ SwitchesOn value := by
  have hread : readSwitch value = some true ↔
      Text.lowerAscii (String.ofList (Text.trimWhile Unicode.isBlank value.toList)) ∈
        ["1", "true", "yes", "on"] := by
    unfold readSwitch
    split <;> simp_all
  rw [hread]
  constructor
  · intro h
    obtain ⟨before, after, he, hbefore, hafter⟩ :=
      Text.exists_eq_padded Unicode.isBlank value.toList
    exact ⟨before, _, after, he, hbefore, hafter, h⟩
  · rintro ⟨before, word, after, he, hbefore, hafter, hword⟩
    rwa [he, Text.trimWhile_padded hbefore hafter, trimWhile_isBlank_word hword]

end Environment

/-- Methods are strict just in the environments that switch it on; other values and no value leave
it off. -/
lemma Config.strictMethods_iff (env : Environment) :
    (Config.ofEnvironment env).strictMethods = true ↔
      ∃ value, env Environment.strictMethods = some value ∧ Environment.SwitchesOn value := by
  simp only [← Environment.readSwitch_eq_true_iff, Config.ofEnvironment]
  rcases env Environment.strictMethods with _ | value
  · simp
  · rcases h : Environment.readSwitch value with _ | (_ | _) <;> simp [h]

namespace Command

variable {env : Environment} {files : Files} {table : Option String}

/-! ### What a command works with -/

/-- The table that is loaded: that of the file, or the default table if no file is named. -/
def Loads (files : Files) : Option String → RouteTable → Prop
  | none, t => t = .default
  | some path, t => RouteTable.load files path = .ok t

/-- The router that a command works with. -/
def Routes (files : Files) (table : Option String) (r : Router) : Prop :=
  ∃ t, Loads files table t ∧ Router.ofTable t = .ok r

lemma router_eq_ok_iff {r : Router} :
    (config env table).router files = .ok r ↔ Routes files table r := by
  have htable : ∀ t, (config env table).table files = .ok t ↔ Loads files table t := by
    intro t
    rcases table with _ | path
    · simp [config, Config.table, Loads, eq_comm]
    · simp only [config, Config.table, Loads]
      rcases RouteTable.load files path with e | t' <;> simp
  unfold Config.router Routes
  rcases h : (config env table).table files with e | t
  · simp [← htable, h]
  · simp only [← htable, h, Except.ok.injEq, exists_eq_left']
    rcases Router.ofTable t with e | r' <;> simp

/-- The method that an argument names and the environment allows. -/
def Names (env : Environment) (argument : String) (m : Method) : Prop :=
  m.text = Text.upperAscii argument ∧ ((Config.ofEnvironment env).strictMethods = true →
    m.text ∈ ["GET", "POST", "PUT", "DELETE", "HEAD"])

lemma mem_supportedMethods {m : Method} :
    m ∈ Config.supportedMethods ↔ m.text ∈ ["GET", "POST", "PUT", "DELETE", "HEAD"] := by
  obtain ⟨text, valid⟩ := m
  simp [Config.supportedMethods, Method.get, Method.post, Method.put, Method.delete, Method.head]

lemma readMethod_eq_ok_iff {argument : String} {m : Method} :
    readMethod (config env table) argument = .ok m ↔ Names env argument m := by
  have hallows : ∀ m, (config env table).allows m = true ↔
      ((Config.ofEnvironment env).strictMethods = true →
        m.text ∈ ["GET", "POST", "PUT", "DELETE", "HEAD"]) := by
    intro m
    rw [← mem_supportedMethods]
    simp only [Config.allows, config, Bool.or_eq_true, Bool.not_eq_true', List.contains_iff_mem]
    cases (Config.ofEnvironment env).strictMethods <;> simp
  unfold readMethod Names
  rcases h : Method.ofString? (Text.upperAscii argument) with _ | m'
  · have hnone : m.text ≠ Text.upperAscii argument := fun e => by
      rw [Method.ofString?_eq_some.mpr e] at h
      cases h
    simp [hnone]
  · have htext : m.text = Text.upperAscii argument ↔ m' = m := by
      rw [← Method.ofString?_eq_some, h, Option.some.injEq]
    simp only [htext]
    split_ifs with hm
    · rw [hallows] at hm
      constructor
      · rintro ⟨⟩
        exact ⟨rfl, hm⟩
      · rintro ⟨rfl, -⟩
        rfl
    · constructor
      · nofun
      · rintro ⟨rfl, hm'⟩
        exact absurd ((hallows m').mpr hm') hm

/-! ### Printing -/

lemma ofExcept_bind {α : Type} (x : Except Failure α) (f : α → EStateM Failure String Unit)
    (printed : String) :
    (MonadExcept.ofExcept x >>= f : EStateM Failure String Unit) printed =
      match x with
      | .ok a => f a printed
      | .error e => .error e printed := by
  cases x <;> rfl

lemma ofExcept_print (x : Except Failure (List Char)) (printed : String) :
    (MonadExcept.ofExcept x >>= print : EStateM Failure String Unit) printed =
      match x with
      | .ok s => .ok () (printed ++ String.ofList s)
      | .error e => .error e printed := by
  cases x <;> rfl

lemma forM_print (rs : List Route) (printed : String) :
    (rs.forM fun r => print (routeLine r)) printed =
      .ok () (printed ++ String.ofList (rs.flatMap routeLine)) := by
  induction rs generalizing printed with
  | nil => simp [pure, EStateM.pure]
  | cons r rs ih =>
    have hstep : ((r :: rs).forM fun r => print (routeLine r)) printed =
        (rs.forM fun r => print (routeLine r)) (printed ++ String.ofList (routeLine r)) := rfl
    rw [hstep, ih]
    simp [String.append_assoc, String.ofList_append]

/-- The text that a command prints once its router is made. -/
def output (env : Environment) (r : Router) : Command → Except Failure (List Char)
  | routes _ => .ok (r.routes.flatMap routeLine)
  | request table method path => matchText (config env table) r method path
  | url _ name params => urlText r name params

@[simp] lemma output_request (r : Router) (table : Option String) (method path : String) :
    output env r (request table method path) = matchText (config env table) r method path := rfl

@[simp] lemma output_url (r : Router) (table : Option String) (name : String)
    (params : List (String × String)) :
    output env r (url table name params) = urlText r name params := rfl

/-- A command prints its whole text or nothing. -/
lemma execute_eq (c : Command) (printed : String) :
    execute env files c printed =
      match ((config env c.table).router files).bind fun r => output env r c with
      | .ok s => .ok () (printed ++ String.ofList s)
      | .error e => .error e printed := by
  rw [execute, ofExcept_bind]
  rcases (config env c.table).router files with e | r
  · rfl
  · cases c with
    | routes table => exact forM_print r.routes printed
    | request table method path =>
      rw [Except.bind, output_request]
      exact ofExcept_print _ printed
    | url table name params =>
      rw [Except.bind, output_url]
      exact ofExcept_print _ printed

lemma run_eq_ok_iff {c : Command} {out : String} :
    run env files c = .ok out ↔
      ∃ r s, Routes files c.table r ∧ output env r c = .ok s ∧ out = String.ofList s := by
  rw [run, EStateM.run, execute_eq]
  simp only [← @router_eq_ok_iff env files]
  rcases (config env c.table).router files with e | r
  · simp [Except.bind]
  · simp only [Except.bind, Except.ok.injEq, exists_and_left, exists_eq_left']
    rcases output env r c with e | s <;> simp [eq_comm]

/-! ### What the match command prints -/

/-- The match that a request has by the table: the answer of its router to the method that was named,
if the environment allows this method. -/
def Answers (env : Environment) (files : Files) (table : Option String) (method path : String)
    (found : RouteMatch) : Prop :=
  ∃ r m, Routes files table r ∧ Names env method m ∧ r.matchRequest m path = .ok found

/-- A text tells a match: it is one JSON document and a line break, and the document is an object
with two keys, for the parameters and for the route. -/
def Tells (found : RouteMatch) (out : String) : Prop :=
  ∃ (document : List Char) (entries : List (String × String)), out.toList = document ++ ['\n'] ∧
    Json.read? document = some (.mapping
      [(some "params", .mapping (entries.map fun (k, v) => (some k, .text v))),
        (some "route", .text found.routeName)]) ∧
    entries.Perm found.params.toList

lemma spellable_matchDocument (m : RouteMatch) : Json.Spellable (matchDocument m) :=
  .mapping_cons _ (.mapping_map .text _) (.mapping_cons _ (.text _) .mapping_nil)

lemma tells_writeLines (m : RouteMatch) :
    Tells m (String.ofList (Json.writeLines 0 (matchDocument m) ++ ['\n'])) :=
  ⟨_, _, String.toList_ofList, Json.read?_writeLines (spellable_matchDocument m) 0,
    List.mergeSort_perm _ _⟩

lemma matchText_eq_ok_iff {r : Router} {method path : String} {s : List Char} :
    matchText (config env table) r method path = .ok s ↔
      ∃ m found, Names env method m ∧ r.matchRequest m path = .ok found ∧
        s = Json.writeLines 0 (matchDocument found) ++ ['\n'] := by
  delta matchText
  simp only [← @readMethod_eq_ok_iff env table]
  rcases readMethod (config env table) method with e | m
  · simp
  · simp only [Except.ok.injEq, exists_and_left, exists_eq_left']
    rcases r.matchRequest m path with e | found <;> simp [eq_comm]

lemma urlText_eq_ok_iff {r : Router} {name : String} {params : List (String × String)}
    {s : List Char} :
    urlText r name params = .ok s ↔
      ∃ url, r.url name (.ofList params) = .ok url ∧ s = '/' :: (url.toList ++ ['\n']) := by
  unfold urlText
  rcases r.url name (.ofList params) with e | url <;> simp [eq_comm]

/-- **Commands agree with the library.** The match command succeeds exactly when the table is loaded
and makes a router, the argument in upper case is a method that the environment allows, and the
router has a match; and then the match can be read back from what is printed. The URL command
succeeds exactly when the router has a URL for the given pairs, the last one of each key, and prints
it behind a slash. A command that fails has printed nothing.

What a command prints goes to a writer that is assumed to take every text: `execute` has no failure
for a writer that refuses one, such as a closed pipe. -/
theorem commands_agree (env : Environment) (files : Files) (table : Option String) :
    (∀ method path,
      (∀ found, Answers env files table method path found →
        ∃ out, run env files (.request table method path) = .ok out ∧ Tells found out) ∧
      ∀ out, run env files (.request table method path) = .ok out →
        ∃ found, Answers env files table method path found ∧ Tells found out) ∧
    (∀ name params, ∃ given : Params, (∀ k, given.get? k = params.reverse.lookup k) ∧
      ∀ out, run env files (.url table name params) = .ok out ↔
        ∃ r url, Routes files table r ∧ r.url name given = .ok url ∧ out = "/" ++ url ++ "\n") ∧
    ∀ c printed e printed',
      execute env files c printed = .error e printed' → printed' = printed := by
  refine ⟨fun method path => ⟨fun found h => ?_, fun out h => ?_⟩, fun name params => ?_, ?_⟩
  · obtain ⟨r, m, hr, hm, hfound⟩ := h
    refine ⟨_, run_eq_ok_iff.mpr ⟨r, _, hr, ?_, rfl⟩, tells_writeLines found⟩
    rw [output_request, matchText_eq_ok_iff]
    exact ⟨m, found, hm, hfound, rfl⟩
  · obtain ⟨r, s, hr, hs, rfl⟩ := run_eq_ok_iff.mp h
    rw [output_request, matchText_eq_ok_iff] at hs
    obtain ⟨m, found, hm, hfound, rfl⟩ := hs
    exact ⟨found, ⟨r, m, hr, hm, hfound⟩, tells_writeLines found⟩
  · refine ⟨.ofList params, OrderedMap.get?_ofList_eq_lookup params, fun out => ?_⟩
    have hline : ∀ url : String, String.ofList ('/' :: (url.toList ++ ['\n'])) =
        "/" ++ url ++ "\n" := fun url => by
      simp [← String.toList_inj]
    rw [run_eq_ok_iff]
    constructor
    · rintro ⟨r, s, hr, hs, rfl⟩
      obtain ⟨url, hurl, rfl⟩ := urlText_eq_ok_iff.mp hs
      exact ⟨r, url, hr, hurl, hline url⟩
    · rintro ⟨r, url, hr, hurl, rfl⟩
      exact ⟨r, _, hr, urlText_eq_ok_iff.mpr ⟨url, hurl, rfl⟩, (hline url).symm⟩
  · intro c printed e printed' h
    rw [execute_eq] at h
    split at h
    · cases h
    · cases h
      rfl

/-- With the default table and in strict mode, a request whose match has a quotation mark in it, and
a command that has no file to read. A request for the same path with a method outside the five is
refused there, and answered where nothing switches strict methods on. -/
theorem commands_agree_strict :
    let strict : Environment := fun name =>
      if name = Environment.strictMethods then some " Yes" else none
    let lenient : Environment := fun _ => none
    let files : Files := fun _ => none
    let found : RouteMatch := ⟨"module-item", .ofList [("module", "Zoë\""), ("item", "42"),
      ("action", "put"), ("format", "html")]⟩
    let viewed : RouteMatch := ⟨"module-item", .ofList [("module", "Zoë\""), ("item", "42"),
      ("action", "view"), ("format", "html")]⟩
    (Config.ofEnvironment strict).strictMethods = true ∧
      (Config.ofEnvironment lenient).strictMethods = false ∧
      Answers strict files none "Put" "/Zo%C3%AB%22/42" found ∧
      (∃ out, run strict files (.request none "Put" "/Zo%C3%AB%22/42") = .ok out ∧
        Tells found out) ∧
      (∀ out, run strict files (.request none "Patch" "/Zo%C3%AB%22/42") ≠ .ok out) ∧
      (∃ out, run lenient files (.request none "Patch" "/Zo%C3%AB%22/42") = .ok out ∧
        Tells viewed out) ∧
      ∃ e printed', execute strict files (.routes (some "routes.yaml")) "before" =
        .error e printed' ∧ printed' = "before" := by
  intro strict lenient files found viewed
  have hstrict : (Config.ofEnvironment strict).strictMethods = true :=
    (Config.strictMethods_iff strict).mpr ⟨" Yes", rfl, [' '], "Yes".toList, [], rfl,
      List.forall_mem_singleton.mpr rfl, List.forall_mem_nil _, by decide +kernel⟩
  have hlenient : (Config.ofEnvironment lenient).strictMethods = false := rfl
  obtain ⟨r, hr⟩ := Router.exists_addSpecs RouteTable.new_of_default ∅
  have hroutes : Routes files none r := ⟨.default, rfl, hr⟩
  let patch : Method := ⟨"PATCH", by decide +kernel⟩
  have hput : r.matchRequest .put "/Zo%C3%AB%22/42" = .ok found :=
    (RouteTable.matchRequest_eq_ok_iff hr).mpr (by decide +kernel)
  have hpatch : r.matchRequest patch "/Zo%C3%AB%22/42" = .ok viewed :=
    (RouteTable.matchRequest_eq_ok_iff hr).mpr (by decide +kernel)
  have hupper : Text.upperAscii "Patch" = "PATCH" := by decide +kernel
  have hanswers : Answers strict files none "Put" "/Zo%C3%AB%22/42" found :=
    ⟨r, .put, hroutes, ⟨by decide +kernel, fun _ => by decide +kernel⟩, hput⟩
  have hviewed : Answers lenient files none "Patch" "/Zo%C3%AB%22/42" viewed :=
    ⟨r, patch, hroutes, ⟨hupper.symm, fun h => absurd (hlenient.symm.trans h) (by decide)⟩, hpatch⟩
  have hrefused : ∀ out, run strict files (.request none "Patch" "/Zo%C3%AB%22/42") ≠ .ok out := by
    intro out hout
    obtain ⟨_, ⟨_, m, -, ⟨htext, hallowed⟩, -⟩, -⟩ :=
      ((commands_agree strict files none).1 _ _).2 out hout
    have hmem := hallowed hstrict
    rw [htext, hupper] at hmem
    exact absurd hmem (by decide)
  have hfails : ∃ e printed', execute strict files (.routes (some "routes.yaml")) "before" =
      .error e printed' := ⟨_, _, rfl⟩
  obtain ⟨e, printed', hfails⟩ := hfails
  exact ⟨hstrict, hlenient, hanswers, ((commands_agree strict files none).1 _ _).1 found hanswers,
    hrefused, ((commands_agree lenient files none).1 _ _).1 viewed hviewed, e, printed', hfails,
    (commands_agree strict files none).2.2 _ _ e printed' hfails⟩

end Command

end Signpost
