import Mathlib.Tactic

/-!
# The configuration centre

`ConfCenter` answers from a document and from three maps of the values it has read
before.  What libxml makes of a file and of an xpath is given by `Libxml` and
`LoadEnv`.  Two states answer alike, now and behind any later calls, when they look up
the same values; a reload that fails is to leave the state alike.

Null arguments, which the getters refuse before they read anything, are left out.
-/

namespace CommonComponent

/-- What the module takes from libxml and from the C library.  `nodeContent` are the
contents that `GetNodeContent` finds, `none` where it fails. -/
structure Libxml (Doc Content F64 F32 : Type*) where
  nodeContent : Option Doc → String → Option (List Content)
  atol : Content → Int64
  atof : Content → F64
  toF32 : F64 → F32
  ofF32 : F32 → F64

/-- A value group, which has a value at least. -/
@[ext] structure ValueGroup (α : Type*) where
  values : List α
  nonempty : values ≠ []

structure ConfCenter (Doc Content F64 : Type*) where
  xmlDoc : Option Doc
  i64ValueGroupMap : String → Option (ValueGroup Int64)
  f64ValueGroupMap : String → Option (ValueGroup F64)
  strValueGroupMap : String → Option (ValueGroup Content)

/-- What `FileExist`, `xmlReadFile`, `xmlGetLastError` and `xmlDocGetRootElement` come
to in a call of `Load`. -/
structure LoadEnv (Doc : Type*) where
  fileExist : Bool
  readFile : Option Doc
  xmlError : Bool
  rootNode : Bool

/-- A call of one of the ten `GetConf`. -/
inductive ConfRequest (Content F64 F32 : Type*)
  | i32 (xpath : String) (withDefault : Bool) (value : Int32)
  | i64 (xpath : String) (withDefault : Bool) (value : Int64)
  | f32 (xpath : String) (withDefault : Bool) (value : F32)
  | f64 (xpath : String) (withDefault : Bool) (value : F64)
  | str (xpath : String) (withDefault : Bool) (value : Content)
  | i32Array (xpath : String) (withDefault : Bool) (value : Int32)
  | i64Array (xpath : String) (withDefault : Bool) (value : Int64)
  | f32Array (xpath : String) (withDefault : Bool) (value : F32)
  | f64Array (xpath : String) (withDefault : Bool) (value : F64)
  | strArray (xpath : String) (withDefault : Bool) (value : Content)

inductive ConfValue (Content F64 F32 : Type*)
  | i32 (conf : Int32)
  | i64 (conf : Int64)
  | f32 (conf : F32)
  | f64 (conf : F64)
  | str (conf : Content)
  | i32Array (confArray : List Int32)
  | i64Array (confArray : List Int64)
  | f32Array (confArray : List F32)
  | f64Array (confArray : List F64)
  | strArray (confArray : List Content)

/-- The return value of a `GetConf` and what it assigns to `conf` or `conf_array` and
to `n`. -/
structure ConfAnswer (Content F64 F32 : Type*) where
  ret : ℤ
  conf : Option (ConfValue Content F64 F32)
  n : Option ℕ

namespace ConfCenter

variable {Doc Content F64 F32 : Type*} (xml : Libxml Doc Content F64 F32)

/-! ## Reading -/

/-- `GetEntries`, with the values that the caller makes of the entries; `none` where
it fails. -/
def getEntries {α : Type*} (convert : Content → α) (xmlDoc : Option Doc)
    (xpath : String) : Option (ValueGroup α) :=
  match xml.nodeContent xmlDoc xpath with
  | none => none
  | some [] => none
  | some (content :: contents) => some ⟨(content :: contents).map convert, by simp⟩

/-- The template `GetConf`: the result and the map behind the call. -/
def getGroup {α : Type*} (valueGroupMap : String → Option (ValueGroup α))
    (entries : String → Option (ValueGroup α)) (xpath : String) (withDefault : Bool)
    (value : α) : List α × (String → Option (ValueGroup α)) :=
  match valueGroupMap xpath with
  | some group => (group.values, valueGroupMap)
  | none =>
      match entries xpath with
      | none => (if withDefault then [value] else [], valueGroupMap)
      | some group =>
          (group.values, Function.update valueGroupMap xpath (some group))

def getI64Group (s : ConfCenter Doc Content F64) (xpath : String) (withDefault : Bool)
    (value : Int64) : List Int64 × ConfCenter Doc Content F64 :=
  let got := getGroup s.i64ValueGroupMap (getEntries xml xml.atol s.xmlDoc) xpath
    withDefault value
  (got.1, { s with i64ValueGroupMap := got.2 })

def getF64Group (s : ConfCenter Doc Content F64) (xpath : String) (withDefault : Bool)
    (value : F64) : List F64 × ConfCenter Doc Content F64 :=
  let got := getGroup s.f64ValueGroupMap (getEntries xml xml.atof s.xmlDoc) xpath
    withDefault value
  (got.1, { s with f64ValueGroupMap := got.2 })

def getStrGroup (s : ConfCenter Doc Content F64) (xpath : String) (withDefault : Bool)
    (value : Content) : List Content × ConfCenter Doc Content F64 :=
  let got := getGroup s.strValueGroupMap (getEntries xml id s.xmlDoc) xpath
    withDefault value
  (got.1, { s with strValueGroupMap := got.2 })

/-- The end of a `GetConf` for one value, from the result of the template. -/
def scalar {α : Type*} (conf : α → ConfValue Content F64 F32) :
    List α → ConfAnswer Content F64 F32
  | [] => ⟨-1, none, none⟩
  | value :: _ => ⟨0, some (conf value), none⟩

/-- The end of a `GetConf` for an array of numbers; `n` is assigned in any case. -/
def array {α : Type*} (confArray : List α → ConfValue Content F64 F32)
    (result : List α) : ConfAnswer Content F64 F32 :=
  if result.isEmpty then ⟨-1, none, some 0⟩
  else ⟨0, some (confArray result), some result.length⟩

def strArray (result : List Content) : ConfAnswer Content F64 F32 :=
  if result.isEmpty then ⟨-1, none, none⟩
  else ⟨0, some (.strArray result), some result.length⟩

def getConf (s : ConfCenter Doc Content F64) :
    ConfRequest Content F64 F32 →
      ConfAnswer Content F64 F32 × ConfCenter Doc Content F64
  | .i32 xpath withDefault value =>
      (s.getI64Group xml xpath withDefault value.toInt64).map
        (scalar fun conf => .i32 conf.toInt32) id
  | .i64 xpath withDefault value =>
      (s.getI64Group xml xpath withDefault value).map (scalar .i64) id
  | .f32 xpath withDefault value =>
      (s.getF64Group xml xpath withDefault (xml.ofF32 value)).map
        (scalar fun conf => .f32 (xml.toF32 conf)) id
  | .f64 xpath withDefault value =>
      (s.getF64Group xml xpath withDefault value).map (scalar .f64) id
  | .str xpath withDefault value =>
      (s.getStrGroup xml xpath withDefault value).map (scalar .str) id
  | .i32Array xpath withDefault value =>
      (s.getI64Group xml xpath withDefault value.toInt64).map
        (array fun result => .i32Array (result.map (·.toInt32))) id
  | .i64Array xpath withDefault value =>
      (s.getI64Group xml xpath withDefault value).map (array .i64Array) id
  | .f32Array xpath withDefault value =>
      (s.getF64Group xml xpath withDefault (xml.ofF32 value)).map
        (array fun result => .f32Array (result.map xml.toF32)) id
  | .f64Array xpath withDefault value =>
      (s.getF64Group xml xpath withDefault value).map (array .f64Array) id
  | .strArray xpath withDefault value =>
      (s.getStrGroup xml xpath withDefault value).map strArray id

/-! ## Loading -/

/-- A state that has read nothing from its document yet. -/
def ofDoc (xmlDoc : Option Doc) : ConfCenter Doc Content F64 where
  xmlDoc := xmlDoc
  i64ValueGroupMap := fun _ => none
  f64ValueGroupMap := fun _ => none
  strValueGroupMap := fun _ => none

/-- `Load`, with its return value. -/
def load (s : ConfCenter Doc Content F64) (env : LoadEnv Doc) :
    ConfCenter Doc Content F64 × ℤ :=
  if !env.fileExist then (s, -1)
  else
    let s := ofDoc env.readFile
    if env.readFile.isNone then (s, -1)
    else if env.xmlError then (s, -1)
    else if !env.rootNode then (s, -1)
    else (s, 0)

def reload (s : ConfCenter Doc Content F64) (env : LoadEnv Doc) :
    ConfCenter Doc Content F64 × ℤ := s.load env

end ConfCenter

/-- A call that is made later. -/
inductive ConfAction (Doc Content F64 F32 : Type*)
  | getConf (request : ConfRequest Content F64 F32)
  | reload (env : LoadEnv Doc)

namespace ConfCenter

variable {Doc Content F64 F32 : Type*} (xml : Libxml Doc Content F64 F32)

def answers (s : ConfCenter Doc Content F64) :
    List (ConfAction Doc Content F64 F32) → List (ConfAnswer Content F64 F32)
  | [] => []
  | .getConf request :: later =>
      (s.getConf xml request).1 :: answers (s.getConf xml request).2 later
  | .reload env :: later => answers (s.reload env).1 later

/-- The answer that comes from a document alone. -/
def answerOf (xmlDoc : Option Doc) (request : ConfRequest Content F64 F32) :
    ConfAnswer Content F64 F32 :=
  ((ofDoc xmlDoc).getConf xml request).1

/-- A reload that fails changes no later answer, and behind one that succeeds every
answer comes from the new document. -/
structure ReloadOk (s : ConfCenter Doc Content F64) (env : LoadEnv Doc) : Prop where
  failed : (s.reload env).2 ≠ 0 → ∀ actions : List (ConfAction Doc Content F64 F32),
    (s.reload env).1.answers xml actions = s.answers xml actions
  succeeded : (s.reload env).2 = 0 → ∀ requests : List (ConfRequest Content F64 F32),
    (s.reload env).1.answers xml (requests.map .getConf) =
      requests.map (answerOf xml env.readFile)

/-! ## What a state looks up -/

def lookupI64 (s : ConfCenter Doc Content F64) (xpath : String) :
    Option (ValueGroup Int64) :=
  (s.i64ValueGroupMap xpath).or (getEntries xml xml.atol s.xmlDoc xpath)

def lookupF64 (s : ConfCenter Doc Content F64) (xpath : String) :
    Option (ValueGroup F64) :=
  (s.f64ValueGroupMap xpath).or (getEntries xml xml.atof s.xmlDoc xpath)

def lookupStr (s : ConfCenter Doc Content F64) (xpath : String) :
    Option (ValueGroup Content) :=
  (s.strValueGroupMap xpath).or (getEntries xml id s.xmlDoc xpath)

structure Alike (s t : ConfCenter Doc Content F64) : Prop where
  i64 : ∀ xpath, s.lookupI64 xml xpath = t.lookupI64 xml xpath
  f64 : ∀ xpath, s.lookupF64 xml xpath = t.lookupF64 xml xpath
  str : ∀ xpath, s.lookupStr xml xpath = t.lookupStr xml xpath

variable {xml} {s t u : ConfCenter Doc Content F64}

theorem Alike.refl (s : ConfCenter Doc Content F64) : Alike xml s s :=
  ⟨fun _ => rfl, fun _ => rfl, fun _ => rfl⟩

theorem Alike.symm (h : Alike xml s t) : Alike xml t s :=
  ⟨fun xpath => (h.i64 xpath).symm, fun xpath => (h.f64 xpath).symm,
    fun xpath => (h.str xpath).symm⟩

theorem Alike.trans (h : Alike xml s t) (h' : Alike xml t u) : Alike xml s u :=
  ⟨fun xpath => (h.i64 xpath).trans (h'.i64 xpath),
    fun xpath => (h.f64 xpath).trans (h'.f64 xpath),
    fun xpath => (h.str xpath).trans (h'.str xpath)⟩

/-- What the template answers from what is looked up. -/
def resultOf {α : Type*} (found : Option (ValueGroup α)) (withDefault : Bool)
    (value : α) : List α :=
  found.elim (if withDefault then [value] else []) (·.values)

section Template

variable {α : Type*} (valueGroupMap entries : String → Option (ValueGroup α))
  (xpath : String) (withDefault : Bool) (value : α)

theorem getGroup_fst : (getGroup valueGroupMap entries xpath withDefault value).1 =
    resultOf ((valueGroupMap xpath).or (entries xpath)) withDefault value := by
  unfold getGroup
  cases valueGroupMap xpath with
  | some group => rfl
  | none =>
      cases entries xpath with
      | none => rfl
      | some group => rfl

theorem getGroup_snd (key : String) :
    ((getGroup valueGroupMap entries xpath withDefault value).2 key).or (entries key) =
      (valueGroupMap key).or (entries key) := by
  unfold getGroup
  cases hcached : valueGroupMap xpath with
  | some group => rfl
  | none =>
      cases hentries : entries xpath with
      | none => rfl
      | some group =>
          by_cases hkey : key = xpath
          · subst hkey
            simp [hcached, hentries]
          · simp [hkey]

end Template

theorem Alike.getI64Group (h : Alike xml s t) (xpath : String) (withDefault : Bool)
    (value : Int64) :
    (s.getI64Group xml xpath withDefault value).1 =
      (t.getI64Group xml xpath withDefault value).1 := by
  have hsame := h.i64 xpath
  unfold lookupI64 at hsame
  simp only [ConfCenter.getI64Group, getGroup_fst, hsame]

theorem Alike.getF64Group (h : Alike xml s t) (xpath : String) (withDefault : Bool)
    (value : F64) :
    (s.getF64Group xml xpath withDefault value).1 =
      (t.getF64Group xml xpath withDefault value).1 := by
  have hsame := h.f64 xpath
  unfold lookupF64 at hsame
  simp only [ConfCenter.getF64Group, getGroup_fst, hsame]

theorem Alike.getStrGroup (h : Alike xml s t) (xpath : String) (withDefault : Bool)
    (value : Content) :
    (s.getStrGroup xml xpath withDefault value).1 =
      (t.getStrGroup xml xpath withDefault value).1 := by
  have hsame := h.str xpath
  unfold lookupStr at hsame
  simp only [ConfCenter.getStrGroup, getGroup_fst, hsame]

theorem alike_getI64Group (s : ConfCenter Doc Content F64) (xpath : String)
    (withDefault : Bool) (value : Int64) :
    Alike xml (s.getI64Group xml xpath withDefault value).2 s :=
  ⟨getGroup_snd _ _ xpath withDefault value, fun _ => rfl, fun _ => rfl⟩

theorem alike_getF64Group (s : ConfCenter Doc Content F64) (xpath : String)
    (withDefault : Bool) (value : F64) :
    Alike xml (s.getF64Group xml xpath withDefault value).2 s :=
  ⟨fun _ => rfl, getGroup_snd _ _ xpath withDefault value, fun _ => rfl⟩

theorem alike_getStrGroup (s : ConfCenter Doc Content F64) (xpath : String)
    (withDefault : Bool) (value : Content) :
    Alike xml (s.getStrGroup xml xpath withDefault value).2 s :=
  ⟨fun _ => rfl, fun _ => rfl, getGroup_snd _ _ xpath withDefault value⟩

theorem alike_getConf (s : ConfCenter Doc Content F64)
    (request : ConfRequest Content F64 F32) : Alike xml (s.getConf xml request).2 s := by
  cases request with
  | i32 xpath withDefault value => exact alike_getI64Group s xpath withDefault _
  | i64 xpath withDefault value => exact alike_getI64Group s xpath withDefault _
  | f32 xpath withDefault value => exact alike_getF64Group s xpath withDefault _
  | f64 xpath withDefault value => exact alike_getF64Group s xpath withDefault _
  | str xpath withDefault value => exact alike_getStrGroup s xpath withDefault _
  | i32Array xpath withDefault value => exact alike_getI64Group s xpath withDefault _
  | i64Array xpath withDefault value => exact alike_getI64Group s xpath withDefault _
  | f32Array xpath withDefault value => exact alike_getF64Group s xpath withDefault _
  | f64Array xpath withDefault value => exact alike_getF64Group s xpath withDefault _
  | strArray xpath withDefault value => exact alike_getStrGroup s xpath withDefault _

theorem Alike.getConf (h : Alike xml s t) (request : ConfRequest Content F64 F32) :
    (s.getConf xml request).1 = (t.getConf xml request).1 := by
  cases request
  all_goals
    simp only [ConfCenter.getConf, Prod.map, h.getI64Group, h.getF64Group, h.getStrGroup]

theorem reload_of_exists (s : ConfCenter Doc Content F64) {env : LoadEnv Doc}
    (hexists : env.fileExist = true) : (s.reload env).1 = ofDoc env.readFile := by
  unfold reload load
  simp only [hexists, Bool.not_true, Bool.false_eq_true, if_false]
  split_ifs
  all_goals rfl

theorem reload_of_missing (s : ConfCenter Doc Content F64) {env : LoadEnv Doc}
    (hmissing : env.fileExist = false) : s.reload env = (s, -1) := by
  unfold reload load
  simp [hmissing]

theorem Alike.reload (h : Alike xml s t) (env : LoadEnv Doc) :
    Alike xml (s.reload env).1 (t.reload env).1 := by
  cases hexists : env.fileExist with
  | false =>
      rw [reload_of_missing s hexists, reload_of_missing t hexists]
      exact h
  | true =>
      rw [reload_of_exists s hexists, reload_of_exists t hexists]
      exact .refl _

theorem Alike.answers (h : Alike xml s t)
    (actions : List (ConfAction Doc Content F64 F32)) :
    s.answers xml actions = t.answers xml actions := by
  induction actions generalizing s t with
  | nil => rfl
  | cons a later ih =>
      cases a with
      | getConf request =>
          have hnext := ((alike_getConf s request).trans h).trans
            (alike_getConf t request).symm
          simp only [ConfCenter.answers, h.getConf request, ih hnext]
      | reload env =>
          simp only [ConfCenter.answers]
          exact ih (h.reload env)

theorem resultOf_injective {α : Type*} {found found' : Option (ValueGroup α)} {value : α}
    (h : resultOf found false value = resultOf found' false value) : found = found' := by
  cases found with
  | none =>
      cases found' with
      | none => rfl
      | some group' => exact absurd h.symm group'.nonempty
  | some group =>
      cases found' with
      | none => exact absurd h group.nonempty
      | some group' => exact congrArg some (ValueGroup.ext h)

theorem array_injective {α : Type*} {confArray : List α → ConfValue Content F64 F32}
    (hinj : Function.Injective confArray) : Function.Injective (array confArray) := by
  intro result result' h
  cases result with
  | nil =>
      cases result' with
      | nil => rfl
      | cons value' later' => simp [array] at h
  | cons value later =>
      cases result' with
      | nil => simp [array] at h
      | cons value' later' =>
          simp only [array, List.isEmpty_cons, Bool.false_eq_true, if_false,
            ConfAnswer.mk.injEq, Option.some.injEq] at h
          exact hinj h.2.1

theorem strArray_injective :
    Function.Injective (strArray : List Content → ConfAnswer Content F64 F32) := by
  intro result result' h
  cases result with
  | nil =>
      cases result' with
      | nil => rfl
      | cons value' later' => simp [strArray] at h
  | cons value later =>
      cases result' with
      | nil => simp [strArray] at h
      | cons value' later' =>
          simp only [strArray, List.isEmpty_cons, Bool.false_eq_true, if_false,
            ConfAnswer.mk.injEq, Option.some.injEq, ConfValue.strArray.injEq] at h
          exact h.2.1

/-- Two states answer alike in every run exactly when they look up the same. -/
theorem answers_eq_iff [Inhabited F64] [Inhabited Content]
    (s t : ConfCenter Doc Content F64) :
    (∀ actions : List (ConfAction Doc Content F64 F32),
      s.answers xml actions = t.answers xml actions) ↔ Alike xml s t := by
  constructor
  · intro h
    constructor
    · intro xpath
      have hanswer := h [.getConf (.i64Array xpath false 0)]
      simp only [answers, ConfCenter.getConf, Prod.map, ConfCenter.getI64Group,
        getGroup_fst, List.cons.injEq, and_true] at hanswer
      exact resultOf_injective
        (array_injective (fun _ _ heq => ConfValue.i64Array.inj heq) hanswer)
    · intro xpath
      have hanswer := h [.getConf (.f64Array xpath false default)]
      simp only [answers, ConfCenter.getConf, Prod.map, ConfCenter.getF64Group,
        getGroup_fst, List.cons.injEq, and_true] at hanswer
      exact resultOf_injective
        (array_injective (fun _ _ heq => ConfValue.f64Array.inj heq) hanswer)
    · intro xpath
      have hanswer := h [.getConf (.strArray xpath false default)]
      simp only [answers, ConfCenter.getConf, Prod.map, ConfCenter.getStrGroup,
        getGroup_fst, List.cons.injEq, and_true] at hanswer
      exact resultOf_injective (strArray_injective hanswer)
  · exact fun h actions => h.answers actions

/-- Behind a fresh document each getter answers as if it were the first one. -/
theorem answers_ofDoc {doc : Option Doc} (h : Alike xml s (ofDoc doc))
    (requests : List (ConfRequest Content F64 F32)) :
    s.answers xml (requests.map .getConf) = requests.map (answerOf xml doc) := by
  induction requests generalizing s with
  | nil => rfl
  | cons request later ih =>
      simp only [List.map_cons, answers, answerOf, h.getConf request]
      exact congrArg _ (ih ((alike_getConf s request).trans h))

/-! ## A reload -/

/-- libxml reads the whole file without an error. -/
def Complete (env : LoadEnv Doc) : Prop :=
  env.fileExist = true ∧ env.readFile.isSome ∧ env.xmlError = false ∧ env.rootNode = true

variable (xml) in
/-- What libxml has left of the file says for every xpath and type what the state
says already. -/
def SaysTheSame (s : ConfCenter Doc Content F64) (env : LoadEnv Doc) : Prop :=
  ∀ xpath, getEntries xml xml.atol env.readFile xpath = s.lookupI64 xml xpath ∧
    getEntries xml xml.atof env.readFile xpath = s.lookupF64 xml xpath ∧
    getEntries xml id env.readFile xpath = s.lookupStr xml xpath

theorem reload_ret (s : ConfCenter Doc Content F64) (env : LoadEnv Doc) :
    (s.reload env).2 = 0 ↔ Complete env := by
  unfold reload load Complete
  cases env.fileExist <;> cases env.readFile <;> cases env.xmlError <;>
    cases env.rootNode <;> simp

theorem saysTheSame_iff (s : ConfCenter Doc Content F64) (env : LoadEnv Doc) :
    Alike xml (ofDoc env.readFile) s ↔ SaysTheSame xml s env := by
  constructor
  · exact fun h xpath => ⟨h.i64 xpath, h.f64 xpath, h.str xpath⟩
  · exact fun h => ⟨fun xpath => (h xpath).1, fun xpath => (h xpath).2.1,
      fun xpath => (h xpath).2.2⟩

/-- **A failed reload changes nothing** exactly when the file is missing or what is
left of it says the same; a reload that succeeds leaves nothing of the old document. -/
theorem reloadOk_iff [Inhabited F64] [Inhabited Content]
    (xml : Libxml Doc Content F64 F32) (s : ConfCenter Doc Content F64)
    (env : LoadEnv Doc) :
    ReloadOk xml s env ↔
      Complete env ∨ env.fileExist = false ∨ SaysTheSame xml s env := by
  constructor
  · intro h
    by_cases hcomplete : Complete env
    · exact .inl hcomplete
    · cases hexists : env.fileExist with
      | false => exact .inr (.inl rfl)
      | true =>
          have halike := (answers_eq_iff _ _).mp
            (h.failed fun hret => hcomplete ((reload_ret s env).mp hret))
          rw [reload_of_exists s hexists] at halike
          exact .inr (.inr ((saysTheSame_iff s env).mp halike))
  · intro h
    constructor
    · intro hret actions
      have hfailed : ¬Complete env := fun hcomplete => hret ((reload_ret s env).mpr hcomplete)
      cases hexists : env.fileExist with
      | false => rw [reload_of_missing s hexists]
      | true =>
          have hsame : SaysTheSame xml s env := by
            rcases h with hcomplete | hmissing | hsame
            · exact absurd hcomplete hfailed
            · rw [hexists] at hmissing
              cases hmissing
            · exact hsame
          rw [reload_of_exists s hexists]
          exact ((saysTheSame_iff s env).mpr hsame).answers actions
    · intro hret requests
      have hcomplete := (reload_ret s env).mp hret
      rw [reload_of_exists s hcomplete.1]
      exact answers_ofDoc (.refl _) requests

/-! ## A file that cannot be read any more -/

def onePort : Libxml Unit String ℕ ℕ where
  nodeContent := fun xmlDoc xpath =>
    if xmlDoc.isSome ∧ xpath = "/conf/port" then some ["7"] else none
  atol := fun content => if content = "7" then 7 else 0
  atof := fun content => if content = "7" then 7 else 0
  toF32 := id
  ofF32 := id

def broken : LoadEnv Unit := ⟨true, none, true, false⟩

theorem not_reloadOk_broken :
    ¬ReloadOk onePort (ofDoc (some ())) broken := by
  intro h
  have hport := h.failed (by decide) [.getConf (.i64 "/conf/port" false 0)]
  have hret := congrArg (List.map (·.ret)) hport
  revert hret
  decide

end ConfCenter

end CommonComponent
