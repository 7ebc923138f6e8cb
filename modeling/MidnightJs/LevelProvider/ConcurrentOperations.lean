import MidnightJs.LevelProvider.LevelPrivateStateProvider
import MidnightJs.Foundations.Interleaving

/-! # Concurrent operations of Level private state providers

Any number of operations on one database, through one or several providers, whose calls come in any
order. An operation is refused when another one has the database open; those that are not refused
take effect one after the other, in the order of their accesses. -/

namespace MidnightJs
open Foundations Foundations.Js Foundations.Async
set_option autoImplicit false

/-! ## An operation as a party of a protocol -/

/-- How far an operation is. The last phases keep the outcome, and whether the database is open. -/
inductive OpPhase
  | start
  | constructed (id : LevelId)
  | opened (id : LevelId)
  | ready (id : LevelId)
  | leaving (id : LevelId) (isOpen : Bool) (outcome : Except LevelError JsValue)
  | closing (id : LevelId) (isOpen : Bool) (outcome : Except LevelError JsValue)
  | ended (outcome : Except LevelError JsValue)

namespace OpPhase

/-- The instance that the operation has constructed and not yet closed. -/
def id : OpPhase → Option LevelId
  | constructed id | opened id | ready id | leaving id _ _ | closing id _ _ => some id
  | _ => none

/-- The instance with which the operation has the database open. -/
def lock : OpPhase → Option LevelId
  | opened id | ready id | leaving id true _ | closing id true _ => some id
  | _ => none

def outcome : OpPhase → Option (Except LevelError JsValue)
  | leaving _ _ outcome | closing _ _ outcome | ended outcome => some outcome
  | _ => none

variable (config : LevelPrivateStateProviderConfig) (op : ProviderOp)

def Allows : OpPhase → LevelCall → Prop
  | start, .construct dbName => dbName = config.midnightDbName
  | constructed id, .openLevel id' => id' = id
  | opened id, .openSubLevel id' levelName => id' = id ∧ levelName = op.levelName config
  | ready id, .access id' levelName a => id' = id ∧ levelName = op.levelName config ∧ a = op.access
  | leaving id _ _, .closeSubLevel id' levelName => id' = id ∧ levelName = op.levelName config
  | closing id _ _, .closeLevel id' => id' = id
  | _, _ => False

def next : OpPhase → Event LevelLibrary → OpPhase
  | start, ⟨.construct _, .ok id⟩ => constructed id
  | constructed id, ⟨.openLevel _, .ok _⟩ => opened id
  | constructed id, ⟨.openLevel _, .error e⟩ => leaving id false (.error e)
  | opened id, ⟨.openSubLevel _ _, .ok _⟩ => ready id
  | opened id, ⟨.openSubLevel _ _, .error e⟩ => leaving id true (.error e)
  | ready id, ⟨.access _ _ _, .ok value⟩ => leaving id true (.ok (op.result value))
  | ready id, ⟨.access _ _ _, .error e⟩ => leaving id true (.error e)
  | leaving id isOpen outcome, ⟨.closeSubLevel _ _, .ok _⟩ => closing id isOpen outcome
  | closing _ _ outcome, ⟨.closeLevel _, .ok _⟩ => ended outcome
  | _, ⟨_, .error e⟩ => ended (.error e)
  | phase, _ => phase

end OpPhase

def operationProtocol (config : LevelPrivateStateProviderConfig) (op : ProviderOp) :
    Protocol LevelLibrary OpPhase where
  allowed := OpPhase.Allows config op
  next := OpPhase.next op

/-- The end of an operation whose body has settled. -/
theorem follows_cleanup {config : LevelPrivateStateProviderConfig} {op : ProviderOp} (id : LevelId)
    (isOpen : Bool) (out : Except LevelError JsValue) :
    (((level (.closeSubLevel id (op.levelName config))).bind fun _ =>
        level (.closeLevel id)).bind fun _ => .ofExcept out).Follows (operationProtocol config op)
      (fun phase out => phase = .ended out) (.leaving id isOpen out) := by
  rw [Program.bind_assoc]
  refine Program.follows_call_bind (E := LevelLibrary) ⟨rfl, rfl⟩ (fun _ => rfl) fun _ => ?_
  refine Program.follows_call_bind (E := LevelLibrary) rfl (fun _ => rfl) fun _ => ?_
  cases out <;> exact rfl

/-- An operation makes its calls in this order, whatever is replied. -/
theorem follows_provider (config : LevelPrivateStateProviderConfig) (op : ProviderOp) :
    (levelPrivateStateProvider config op).Follows (operationProtocol config op)
      (fun phase out => phase = .ended out) .start := by
  rw [levelPrivateStateProvider_eq]
  refine Program.follows_call_bind (E := LevelLibrary) rfl (fun _ => rfl) fun id => ?_
  refine Program.follows_call_withFinally (E := LevelLibrary) rfl (fun e => ?_) fun _ => ?_
  · exact follows_cleanup id false (.error e)
  refine Program.follows_call_withFinally (E := LevelLibrary) ⟨rfl, rfl⟩ (fun e => ?_) fun _ => ?_
  · exact follows_cleanup id true (.error e)
  refine Program.follows_call_withFinally (E := LevelLibrary) ⟨rfl, rfl, rfl⟩ (fun e => ?_)
    fun value => ?_
  · exact follows_cleanup id true (.error e)
  · exact follows_cleanup id true (.ok (op.result value))

/-! ## The calls of the operations -/

section Traces

variable {ι : Type} [DecidableEq ι]

def openerAfter (who : Option ι) (e : ι × Event LevelLibrary) : Option ι :=
  match e with
  | (i, ⟨.openLevel _, .ok _⟩) => some i
  | (i, ⟨.closeLevel _, _⟩) => if who = some i then none else who
  | _ => who

/-- The operation that has the database open after these calls. -/
def opener (tr : List (ι × Event LevelLibrary)) : Option ι := tr.foldl openerAfter none

omit [DecidableEq ι] in
/-- The operations that have made their access, in the order of the accesses. -/
def accessOrder (tr : List (ι × Event LevelLibrary)) : List ι :=
  tr.filterMap fun
    | (i, ⟨.access _ _ _, _⟩) => some i
    | _ => none

@[simp] theorem opener_append_singleton (tr : List (ι × Event LevelLibrary))
    (e : ι × Event LevelLibrary) : opener (tr ++ [e]) = openerAfter (opener tr) e := by
  simp [opener]

omit [DecidableEq ι] in
theorem accessOrder_append (tr tr' : List (ι × Event LevelLibrary)) :
    accessOrder (tr ++ tr') = accessOrder tr ++ accessOrder tr' :=
  List.filterMap_append ..

omit [DecidableEq ι] in
theorem accessOrder_snoc_access {tr : List (ι × Event LevelLibrary)} {i : ι}
    {e : Event LevelLibrary} {id : LevelId} {name : JsString} {a : LevelAccess}
    (h : e.call = .access id name a) :
    accessOrder (tr ++ [(i, e)]) = accessOrder tr ++ [i] := by
  obtain ⟨c, r⟩ := e
  cases h
  exact accessOrder_append tr _

omit [DecidableEq ι] in
theorem accessOrder_snoc {tr : List (ι × Event LevelLibrary)} {i : ι} {e : Event LevelLibrary}
    (h : ∀ id name a, e.call ≠ .access id name a) : accessOrder (tr ++ [(i, e)]) = accessOrder tr := by
  obtain ⟨c, r⟩ := e
  rw [accessOrder_append]
  cases c with
  | access id name a => exact absurd rfl (h id name a)
  | _ => exact List.append_nil _

end Traces

section Moves

variable [SuperJson]

/-- What a call of an operation does, the database being held as it should be. -/
inductive OpMove (dbName levelName : JsString) (op : ProviderOp) (s : Databases) :
    OpPhase → Event LevelLibrary → OpPhase → Databases → Prop
  | construct : OpMove dbName levelName op s .start
      ⟨.construct dbName, .ok s.instances.length⟩ (.constructed s.instances.length)
      { s with instances := s.instances ++ [dbName] }
  | openLevel (id : LevelId) (free : s.holder dbName = none) :
    OpMove dbName levelName op s (.constructed id) ⟨.openLevel id, .ok ()⟩ (.opened id)
      { s with holder := Function.update s.holder dbName (some id) }
  | refuse (id other : LevelId) (held : s.holder dbName = some other) :
    OpMove dbName levelName op s (.constructed id) ⟨.openLevel id, .error .locked⟩
      (.leaving id false (.error .locked)) s
  | openSubLevel (id : LevelId) :
    OpMove dbName levelName op s (.opened id) ⟨.openSubLevel id levelName, .ok ()⟩ (.ready id)
      { s with subLevels := Function.update s.subLevels id (levelName :: s.subLevels id) }
  | access (id : LevelId) :
    OpMove dbName levelName op s (.ready id)
      ⟨.access id levelName op.access, (op.access.perform (s.content dbName levelName)).1⟩
      (.leaving id true ((op.access.perform (s.content dbName levelName)).1.map op.result))
      (s.setContent dbName levelName (op.access.perform (s.content dbName levelName)).2)
  | closeSubLevel (id : LevelId) (isOpen : Bool) (out : Except LevelError JsValue) :
    OpMove dbName levelName op s (.leaving id isOpen out) ⟨.closeSubLevel id levelName, .ok ()⟩
      (.closing id isOpen out) (s.closeSubLevel id levelName)
  | closeLevel (id : LevelId) (out : Except LevelError JsValue) :
    OpMove dbName levelName op s (.closing id true out) ⟨.closeLevel id, .ok ()⟩ (.ended out)
      { s with
        holder := Function.update s.holder dbName none
        subLevels := Function.update s.subLevels id [] }
  | closeUnopened (id : LevelId) (out : Except LevelError JsValue) :
    OpMove dbName levelName op s (.closing id false out) ⟨.closeLevel id, .ok ()⟩ (.ended out) s

/-- What a phase says of its own instance: it is one of the database, the holder if the phase is one
of an open database, and with the sublevel open before the access. -/
structure OpPhase.Sound (dbName levelName : JsString) (s : Databases) (phase : OpPhase) : Prop where
  constructed : ∀ id, phase.id = some id → s.instances[id]? = some dbName
  holds : ∀ id, phase.id = some id → (s.holder dbName = some id ↔ phase.lock = some id)
  subLevel : ∀ id, phase = .ready id → levelName ∈ s.subLevels id

omit [SuperJson] in
/-- An operation without an instance says nothing. -/
theorem OpPhase.sound_of_id_none {dbName levelName : JsString} {s : Databases} {phase : OpPhase}
    (h : phase.id = none) : phase.Sound dbName levelName s := by
  constructor
  · intro id hid
    rw [h] at hid
    cases hid
  · intro id hid
    rw [h] at hid
    cases hid
  · intro id hid
    rw [hid] at h
    cases h

variable {config : LevelPrivateStateProviderConfig} {op : ProviderOp} {s s' : Databases}
  {phase : OpPhase}

omit [SuperJson] in
theorem OpPhase.Sound.opened {dbName levelName : JsString} {id : LevelId}
    (h : phase.Sound dbName levelName s) (hlock : phase.lock = some id) (hid : phase.id = some id) :
    s.opened id = some dbName := by
  simp [Databases.opened, h.constructed id hid, (h.holds id hid).mpr hlock]

/-- Opening succeeds on a free database, and is refused on a held one. -/
theorem opMove_openLevel {id : LevelId} {r : LevelLibrary.Settled (.openLevel id)}
    (h : (OpPhase.constructed id).Sound config.midnightDbName (op.levelName config) s)
    (replied : levelEnv (.openLevel id) s r s') :
    OpMove config.midnightDbName (op.levelName config) op s (.constructed id) ⟨.openLevel id, r⟩
      (OpPhase.next op (.constructed id) ⟨.openLevel id, r⟩) s' := by
  have hconstructed := h.constructed id rfl
  have hholds := h.holds id rfl
  cases hheld : s.holder config.midnightDbName with
  | none =>
    replace replied := Eq.trans replied (openLevel_free hconstructed hheld)
    cases replied
    exact .openLevel id hheld
  | some other =>
    have hne : other ≠ id := by
      rintro rfl
      cases hholds.mp hheld
    replace replied := Eq.trans replied (openLevel_held hconstructed hheld hne)
    cases replied
    exact .refuse id other hheld

/-- The access is made on an open database and sublevel. -/
theorem opMove_access {id : LevelId}
    {r : LevelLibrary.Settled (.access id (op.levelName config) op.access)}
    (h : (OpPhase.ready id).Sound config.midnightDbName (op.levelName config) s)
    (replied : levelEnv (.access id (op.levelName config) op.access) s r s') :
    OpMove config.midnightDbName (op.levelName config) op s (.ready id)
      ⟨.access id (op.levelName config) op.access, r⟩
      (OpPhase.next op (.ready id) ⟨.access id (op.levelName config) op.access, r⟩) s' := by
  have hopened : s.opened id = some config.midnightDbName := h.opened rfl rfl
  have hsub := h.subLevel id rfl
  have hnext : ∀ r : LevelLibrary.Settled (.access id (op.levelName config) op.access),
      OpPhase.next op (.ready id) ⟨_, r⟩ = .leaving id true (Except.map op.result r) := by
    intro r
    cases r <;> rfl
  replace replied := Eq.trans replied (access_opened hopened hsub op.access)
  cases replied
  refine cast (congrArg (fun p => OpMove _ _ op s (.ready id) _ p _) (hnext _).symm) ?_
  exact .access id

/-- Closing an instance that was refused leaves the database to its holder. -/
theorem opMove_closeLevel {id : LevelId} {isOpen : Bool} {out : Except LevelError JsValue}
    {r : LevelLibrary.Settled (.closeLevel id)}
    (h : (OpPhase.closing id isOpen out).Sound config.midnightDbName (op.levelName config) s)
    (replied : levelEnv (.closeLevel id) s r s') :
    OpMove config.midnightDbName (op.levelName config) op s (.closing id isOpen out)
      ⟨.closeLevel id, r⟩ (OpPhase.next op (.closing id isOpen out) ⟨.closeLevel id, r⟩) s' := by
  cases isOpen with
  | true =>
    have hopened : s.opened id = some config.midnightDbName := h.opened rfl rfl
    replace replied := Eq.trans replied (closeLevel_opened hopened)
    cases replied
    exact .closeLevel id out
  | false =>
    have hopened : s.opened id = none := by
      have hconstructed := h.constructed id rfl
      have hholds := h.holds id rfl
      have hfree : s.holder config.midnightDbName ≠ some id := fun he => by
        cases hholds.mp he
      simp [Databases.opened, hconstructed, hfree]
    replace replied := Eq.trans replied (closeLevel_unopened hopened)
    cases replied
    exact .closeUnopened id out

theorem opMove {c : LevelCall} {r : LevelLibrary.Settled c}
    (h : phase.Sound config.midnightDbName (op.levelName config) s)
    (allowed : phase.Allows config op c) (replied : levelEnv c s r s') :
    OpMove config.midnightDbName (op.levelName config) op s phase ⟨c, r⟩ (phase.next op ⟨c, r⟩) s' := by
  cases phase with
  | start =>
    cases c with
    | construct dbName =>
      cases allowed
      cases replied
      exact .construct
    | _ => exact allowed.elim
  | constructed id =>
    cases c with
    | openLevel id' =>
      cases allowed
      exact opMove_openLevel h replied
    | _ => exact allowed.elim
  | opened id =>
    cases c with
    | openSubLevel id' levelName =>
      obtain ⟨rfl, rfl⟩ := allowed
      have hopened : s.opened id' = some config.midnightDbName := h.opened rfl rfl
      replace replied := Eq.trans replied (openSubLevel_opened hopened)
      cases replied
      exact .openSubLevel id'
    | _ => exact allowed.elim
  | ready id =>
    cases c with
    | access id' levelName a =>
      obtain ⟨rfl, rfl, rfl⟩ := allowed
      exact opMove_access h replied
    | _ => exact allowed.elim
  | leaving id isOpen out =>
    cases c with
    | closeSubLevel id' levelName =>
      obtain ⟨rfl, rfl⟩ := allowed
      cases replied
      exact .closeSubLevel id' isOpen out
    | _ => exact allowed.elim
  | closing id isOpen out =>
    cases c with
    | closeLevel id' =>
      cases allowed
      exact opMove_closeLevel h replied
    | _ => exact allowed.elim
  | ended out => exact allowed.elim

namespace OpMove

variable {dbName levelName otherName : JsString} {p p' other : OpPhase} {e : Event LevelLibrary}

theorem instances (move : OpMove dbName levelName op s p e p' s') {id : LevelId} {name : JsString}
    (h : s.instances[id]? = some name) : s'.instances[id]? = some name := by
  cases move with
  | construct =>
    obtain ⟨hlt, -⟩ := List.getElem?_eq_some_iff.mp h
    rw [← h]
    exact List.getElem?_append_left hlt
  | _ => exact h

/-- An operation keeps its instance or constructs a new one. -/
theorem id_cases (move : OpMove dbName levelName op s p e p' s') {id : LevelId}
    (h : p'.id = some id) : p.id = some id ∨ id = s.instances.length := by
  cases move with
  | construct => exact .inr (Option.some.inj h).symm
  | closeLevel id out => cases h
  | closeUnopened id out => cases h
  | _ => exact .inl h

theorem outcome (move : OpMove dbName levelName op s p e p' s') {out : Except LevelError JsValue}
    (h : p.outcome = some out) : p'.outcome = some out := by
  cases move with
  | closeSubLevel id isOpen out => exact h
  | closeLevel id out => exact h
  | closeUnopened id out => exact h
  | _ => cases h

theorem sound (move : OpMove dbName levelName op s p e p' s') (h : p.Sound dbName levelName s)
    (fresh : s.holder dbName ≠ some s.instances.length) : p'.Sound dbName levelName s' := by
  cases move with
  | construct =>
    refine ⟨fun id hid => ?_, fun id hid => ?_, fun id hid => by cases hid⟩
    · cases hid
      exact List.getElem?_concat_length ..
    · cases hid
      simpa [OpPhase.lock] using fresh
  | openLevel id free =>
    refine ⟨h.constructed, fun id' hid => ?_, fun id' hid => by cases hid⟩
    cases hid
    simp [OpPhase.lock]
  | refuse id other held => exact ⟨h.constructed, h.holds, fun id' hid => by cases hid⟩
  | openSubLevel id =>
    refine ⟨h.constructed, h.holds, fun id' hid => ?_⟩
    cases hid
    simp
  | access id => exact ⟨h.constructed, h.holds, fun id' hid => by cases hid⟩
  | closeSubLevel id isOpen out =>
    cases isOpen <;> exact ⟨h.constructed, h.holds, fun id' hid => by cases hid⟩
  | closeLevel id out => exact OpPhase.sound_of_id_none rfl
  | closeUnopened id out => exact OpPhase.sound_of_id_none rfl

theorem sound_other (move : OpMove dbName levelName op s p e p' s') (h : p.Sound dbName levelName s)
    (ho : other.Sound dbName otherName s) (hne : ∀ id, p.id = some id → other.id ≠ some id) :
    other.Sound dbName otherName s' := by
  refine ⟨fun id hid => move.instances (ho.constructed id hid), fun id hid => ?_, fun id hid => ?_⟩
  · have hholds := ho.holds id hid
    cases move with
    | openLevel id' free =>
      have hid' : id' ≠ id := by
        rintro rfl
        exact hne _ rfl hid
      rw [free] at hholds
      simpa [hid'] using hholds
    | closeLevel id' out =>
      have hid' : id' ≠ id := by
        rintro rfl
        exact hne _ rfl hid
      have hheld : s.holder dbName = some id' := (h.holds id' rfl).mpr rfl
      rw [hheld] at hholds
      simpa [hid'] using hholds
    | _ => exact hholds
  · have hsub := ho.subLevel id hid
    have hother : other.id = some id := by rw [hid]; rfl
    cases move with
    | openSubLevel id' =>
      have hid' : id ≠ id' := by
        rintro rfl
        exact hne _ rfl hother
      simpa [hid'] using hsub
    | closeSubLevel id' isOpen out =>
      have hid' : id ≠ id' := by
        rintro rfl
        exact hne _ rfl hother
      simpa [Databases.closeSubLevel, hid'] using hsub
    | closeLevel id' out =>
      have hid' : id ≠ id' := by
        rintro rfl
        exact hne _ rfl hother
      simpa [hid'] using hsub
    | _ => exact hsub

/-- Only an access changes the content. -/
theorem content_cases (move : OpMove dbName levelName op s p e p' s') :
    (∃ id, p = .ready id ∧ e.call = .access id levelName op.access ∧
      p'.outcome = some ((op.access.perform (s.content dbName levelName)).1.map op.result) ∧
      s'.content = Function.update s.content dbName (Function.update (s.content dbName) levelName
        (op.access.perform (s.content dbName levelName)).2)) ∨
    ((∀ id name a, e.call ≠ .access id name a) ∧ s'.content = s.content) := by
  cases move with
  | access id => exact .inl ⟨id, rfl, rfl, rfl, rfl⟩
  | _ =>
    refine .inr ⟨fun id name a h => ?_, rfl⟩
    cases h

/-- An open database changes hands by two of the calls only. -/
theorem lock_cases {ι : Type} [DecidableEq ι] (move : OpMove dbName levelName op s p e p' s') (i : ι) :
    (p'.lock = p.lock ∧ s'.holder = s.holder ∧
      ∀ who : Option ι, (p.lock = none → who ≠ some i) → openerAfter who (i, e) = who) ∨
    (∃ id, p.lock = none ∧ p'.lock = some id ∧ s.holder dbName = none ∧
      s'.holder = Function.update s.holder dbName (some id) ∧
      ∀ who : Option ι, openerAfter who (i, e) = some i) ∨
    (∃ id, p.lock = some id ∧ p'.lock = none ∧ s'.holder = Function.update s.holder dbName none ∧
      ∀ who : Option ι, openerAfter who (i, e) = if who = some i then none else who) := by
  cases move with
  | openLevel id free => exact .inr (.inl ⟨id, rfl, rfl, free, rfl, fun _ => rfl⟩)
  | closeLevel id out => exact .inr (.inr ⟨id, rfl, rfl, rfl, fun _ => rfl⟩)
  | closeUnopened id out => exact .inl ⟨rfl, rfl, fun who h => if_neg (h rfl)⟩
  | closeSubLevel id isOpen out =>
    cases isOpen <;> exact .inl ⟨rfl, rfl, fun _ _ => rfl⟩
  | _ => exact .inl ⟨rfl, rfl, fun _ _ => rfl⟩

/-- An outcome is that of the access, or the operation is refused. -/
theorem outcome_cases (move : OpMove dbName levelName op s p e p' s')
    {out : Except LevelError JsValue} (h : p'.outcome = some out) :
    p.outcome = some out ∨ (∃ id, e.call = .access id levelName op.access) ∨
      (out = .error .locked ∧ ∃ id, e = ⟨.openLevel id, .error .locked⟩) := by
  cases move with
  | access id => exact .inr (.inl ⟨id, rfl⟩)
  | refuse id other held => exact .inr (.inr ⟨(Option.some.inj h).symm, id, rfl⟩)
  | closeSubLevel id isOpen out => exact .inl h
  | closeLevel id out => exact .inl h
  | closeUnopened id out => exact .inl h
  | _ => cases h

theorem opens (move : OpMove dbName levelName op s p e p' s') {id : LevelId}
    {r : LevelLibrary.Settled (.openLevel id)} (he : e = ⟨.openLevel id, r⟩) :
    r = .ok () ↔ s.holder dbName = none := by
  cases move with
  | openLevel id' free =>
    cases he
    simp [free]
  | refuse id' other held =>
    cases he
    simp [held]
  | _ => cases he

end OpMove

/-! ## The invariant -/

variable {ι : Type} [DecidableEq ι] {config : ι → LevelPrivateStateProviderConfig}
  {op : ι → ProviderOp} {dbName : JsString} {s₀ s s' : Databases}
  {tr : List (ι × Event LevelLibrary)} {phase : ι → OpPhase}

/-- The open database is that of one operation, and an operation is refused just when there is one. -/
structure Excludes (config : ι → LevelPrivateStateProviderConfig) (op : ι → ProviderOp)
    (dbName : JsString) (tr : List (ι × Event LevelLibrary)) (phase : ι → OpPhase) (s : Databases) :
    Prop where
  sound : ∀ i, (phase i).Sound dbName ((op i).levelName (config i)) s
  distinct : ∀ i j id, (phase i).id = some id → (phase j).id = some id → i = j
  held : ∀ id, s.holder dbName = some id → ∃ i, (phase i).lock = some id
  opener_eq : ∀ i, opener tr = some i ↔ (phase i).lock ≠ none
  opens : ∀ pre i id r post, tr = pre ++ (i, ⟨.openLevel id, r⟩) :: post →
    (r = .ok () ↔ opener pre = none)

/-- The operations have taken effect in the order of their accesses, and the others were refused. -/
structure TookEffect (config : ι → LevelPrivateStateProviderConfig) (op : ι → ProviderOp)
    (dbName : JsString) (s₀ : Databases) (tr : List (ι × Event LevelLibrary)) (phase : ι → OpPhase)
    (s : Databases) : Prop where
  session : ∃ done s₁, Session (S := providerService) levelEnv s₀ done s₁ ∧
    s₁.holder dbName = none ∧ s₁.content = s.content ∧
    List.Forall₂ (fun i d => d.op = (config i, op i) ∧ (phase i).outcome = some d.outcome)
      (accessOrder tr) done
  nodup : (accessOrder tr).Nodup
  refused : ∀ i out, (phase i).outcome = some out → i ∈ accessOrder tr ∨
    (out = .error .locked ∧ ∃ id, (i, ⟨.openLevel id, .error .locked⟩) ∈ tr)

omit [SuperJson] [DecidableEq ι] in
theorem OpPhase.id_of_lock {p : OpPhase} {id : LevelId} (h : p.lock = some id) : p.id = some id := by
  cases p with
  | leaving id' isOpen out => cases isOpen <;> first | exact h | cases h
  | closing id' isOpen out => cases isOpen <;> first | exact h | cases h
  | start => cases h
  | constructed id' => cases h
  | ended out => cases h
  | _ => exact h

omit [SuperJson] in
theorem Excludes.opener_none (I : Excludes config op dbName tr phase s) :
    opener tr = none ↔ s.holder dbName = none := by
  constructor
  · intro h
    by_contra hheld
    obtain ⟨id, hid⟩ := Option.ne_none_iff_exists'.mp hheld
    obtain ⟨i, hi⟩ := I.held id hid
    have hopener := (I.opener_eq i).mpr (by simp [hi])
    rw [h] at hopener
    cases hopener
  · intro h
    by_contra hopener
    obtain ⟨i, hi⟩ := Option.ne_none_iff_exists'.mp hopener
    obtain ⟨id, hid⟩ := Option.ne_none_iff_exists'.mp ((I.opener_eq i).mp hi)
    have hheld := ((I.sound i).holds id (OpPhase.id_of_lock hid)).mpr hid
    rw [h] at hheld
    cases hheld

omit [SuperJson] in
theorem Excludes.fresh (I : Excludes config op dbName tr phase s) :
    s.holder dbName ≠ some s.instances.length := by
  intro h
  obtain ⟨i, hi⟩ := I.held _ h
  have hlt := (I.sound i).constructed _ (OpPhase.id_of_lock hi)
  simp at hlt

/-! One step, clause by clause -/

section Step

variable {i : ι} {e : Event LevelLibrary} {p' : OpPhase}

theorem Excludes.step_other (I : Excludes config op dbName tr phase s)
    (move : OpMove dbName ((op i).levelName (config i)) (op i) s (phase i) e p' s') {j : ι}
    (hj : j ≠ i) {id : LevelId} (hid : p'.id = some id) : (phase j).id ≠ some id := by
  intro h
  rcases move.id_cases hid with hold | hlength
  · exact hj (I.distinct j i id h hold)
  · have hlt := (I.sound j).constructed id h
    rw [hlength] at hlt
    simp at hlt

theorem Excludes.step_distinct (I : Excludes config op dbName tr phase s)
    (move : OpMove dbName ((op i).levelName (config i)) (op i) s (phase i) e p' s') (j k : ι)
    (id : LevelId) (hjid : (Function.update phase i p' j).id = some id)
    (hkid : (Function.update phase i p' k).id = some id) : j = k := by
  by_cases hj : j = i
  · by_cases hk : k = i
    · rw [hj, hk]
    · subst hj
      rw [Function.update_self] at hjid
      rw [Function.update_of_ne hk] at hkid
      exact absurd hkid (I.step_other move hk hjid)
  · rw [Function.update_of_ne hj] at hjid
    by_cases hk : k = i
    · subst hk
      rw [Function.update_self] at hkid
      exact absurd hjid (I.step_other move hj hkid)
    · rw [Function.update_of_ne hk] at hkid
      exact I.distinct j k id hjid hkid

theorem Excludes.step_held (I : Excludes config op dbName tr phase s)
    (move : OpMove dbName ((op i).levelName (config i)) (op i) s (phase i) e p' s') (id : LevelId)
    (hid : s'.holder dbName = some id) : ∃ j, (Function.update phase i p' j).lock = some id := by
  rcases move.lock_cases i with ⟨hlock, hholder, -⟩ | ⟨id', -, hlock, -, hholder, -⟩ |
    ⟨id', -, -, hholder, -⟩
  · rw [hholder] at hid
    obtain ⟨j, hj⟩ := I.held id hid
    refine ⟨j, ?_⟩
    by_cases hji : j = i
    · subst hji
      rw [Function.update_self, hlock]
      exact hj
    · rwa [Function.update_of_ne hji]
  · rw [hholder, Function.update_self] at hid
    exact ⟨i, by rw [Function.update_self, hlock, hid]⟩
  · rw [hholder, Function.update_self] at hid
    cases hid

theorem Excludes.step_opener (I : Excludes config op dbName tr phase s)
    (move : OpMove dbName ((op i).levelName (config i)) (op i) s (phase i) e p' s') (j : ι) :
    opener (tr ++ [(i, e)]) = some j ↔ (Function.update phase i p' j).lock ≠ none := by
  rw [opener_append_singleton]
  rcases move.lock_cases i with ⟨hlock, -, hwho⟩ | ⟨id', -, hlock, hfree, -, hwho⟩ |
    ⟨id', hlock, hlock', -, hwho⟩
  · rw [hwho _ fun hnone hi => (I.opener_eq i).mp hi hnone, I.opener_eq j]
    by_cases hj : j = i
    · subst hj
      rw [Function.update_self, hlock]
    · rw [Function.update_of_ne hj]
  · rw [hwho]
    by_cases hj : j = i
    · subst hj
      rw [Function.update_self, hlock]
      simp
    · rw [Function.update_of_ne hj, ← I.opener_eq j, I.opener_none.mpr hfree]
      simpa using fun h : i = j => hj h.symm
  · have hopener : opener tr = some i := (I.opener_eq i).mpr (by simp [hlock])
    rw [hwho, if_pos hopener]
    by_cases hj : j = i
    · subst hj
      rw [Function.update_self, hlock']
      simp
    · rw [Function.update_of_ne hj, ← I.opener_eq j, hopener]
      simpa using fun h : i = j => hj h.symm

theorem Excludes.step_opens (I : Excludes config op dbName tr phase s)
    (move : OpMove dbName ((op i).levelName (config i)) (op i) s (phase i) e p' s')
    {pre post : List (ι × Event LevelLibrary)} {k : ι} {id : LevelId} {r : Except LevelError Unit}
    (heq : tr ++ [(i, e)] = pre ++ (k, ⟨.openLevel id, r⟩) :: post) :
    r = .ok () ↔ opener pre = none := by
  obtain rfl | ⟨post', last, rfl⟩ := post.eq_nil_or_concat
  · obtain ⟨rfl, hlast⟩ := List.append_inj' heq rfl
    cases hlast
    rw [I.opener_none]
    exact move.opens rfl
  · rw [List.concat_eq_append, ← List.cons_append, ← List.append_assoc] at heq
    exact I.opens pre k id r post' (List.append_inj_left' heq rfl)

theorem Excludes.step (I : Excludes config op dbName tr phase s)
    (move : OpMove dbName ((op i).levelName (config i)) (op i) s (phase i) e p' s') :
    Excludes config op dbName (tr ++ [(i, e)]) (Function.update phase i p') s' := by
  constructor
  · intro j
    by_cases hj : j = i
    · subst hj
      rw [Function.update_self]
      exact move.sound (I.sound j) I.fresh
    · rw [Function.update_of_ne hj]
      exact move.sound_other (I.sound i) (I.sound j) fun id hi h => hj (I.distinct j i id h hi)
  · exact I.step_distinct move
  · exact I.step_held move
  · exact I.step_opener move
  · intro pre k id r post heq
    exact I.step_opens move heq

end Step

theorem OpMove.outcome_kept {i : ι} {e : Event LevelLibrary} {p' : OpPhase}
    (move : OpMove dbName ((op i).levelName (config i)) (op i) s (phase i) e p' s') (j : ι)
    {out : Except LevelError JsValue} (h : (phase j).outcome = some out) :
    (Function.update phase i p' j).outcome = some out := by
  by_cases hj : j = i
  · subst hj
    rw [Function.update_self]
    exact move.outcome h
  · rwa [Function.update_of_ne hj]

theorem TookEffect.step_refused (T : TookEffect config op dbName s₀ tr phase s) {i : ι}
    {e : Event LevelLibrary} {p' : OpPhase}
    (move : OpMove dbName ((op i).levelName (config i)) (op i) s (phase i) e p' s') (j : ι)
    (out : Except LevelError JsValue)
    (h : (Function.update phase i p' j).outcome = some out) :
    j ∈ accessOrder (tr ++ [(i, e)]) ∨ (out = .error .locked ∧
      ∃ id, (j, ⟨.openLevel id, .error .locked⟩) ∈ tr ++ [(i, e)]) := by
  have hold : (phase j).outcome = some out → j ∈ accessOrder (tr ++ [(i, e)]) ∨
      (out = .error .locked ∧ ∃ id, (j, ⟨.openLevel id, .error .locked⟩) ∈ tr ++ [(i, e)]) := by
    intro h
    rcases T.refused j out h with h | ⟨hout, id, hmem⟩
    · rw [accessOrder, List.filterMap_append]
      exact .inl (List.mem_append_left _ h)
    · exact .inr ⟨hout, id, List.mem_append_left _ hmem⟩
  by_cases hj : j = i
  · subst hj
    rw [Function.update_self] at h
    rcases move.outcome_cases h with h | ⟨id, h⟩ | ⟨hout, id, rfl⟩
    · exact hold h
    · rw [accessOrder_snoc_access h]
      exact .inl (by simp)
    · exact .inr ⟨hout, id, by simp⟩
  · rw [Function.update_of_ne hj] at h
    exact hold h

omit [DecidableEq ι] in
/-- An operation that has made its access has an outcome. -/
theorem TookEffect.outcome_ne_none (T : TookEffect config op dbName s₀ tr phase s) {i : ι}
    (hi : i ∈ accessOrder tr) : (phase i).outcome ≠ none := by
  obtain ⟨done, s₁, -, -, -, hdone⟩ := T.session
  have hrecorded : ∀ j ∈ accessOrder tr, (phase j).outcome ≠ none :=
    ((List.forall₂_and_left (R := fun _ _ => True) _ _).mp
      (hdone.imp fun j d h => ⟨by simp [h.2], trivial⟩)).1
  exact hrecorded i hi

theorem TookEffect.step (T : TookEffect config op dbName s₀ tr phase s)
    (hdb : ∀ i, (config i).midnightDbName = dbName) {i : ι} {e : Event LevelLibrary} {p' : OpPhase}
    (move : OpMove dbName ((op i).levelName (config i)) (op i) s (phase i) e p' s') :
    TookEffect config op dbName s₀ (tr ++ [(i, e)]) (Function.update phase i p') s' := by
  obtain ⟨done, s₁, hsession, hclosed, hcontent, hdone⟩ := T.session
  have hdone' := hdone.imp fun j d h => And.intro h.1 (move.outcome_kept j h.2)
  rcases move.content_cases with ⟨id, hready, hcall, hout, hcontent'⟩ | ⟨hcall, hcontent'⟩
  · -- The sequential run goes on with this operation, alone on the content of this moment.
    obtain ⟨trace, out, s₂, hrun⟩ : ∃ trace out s₂,
        Exec levelEnv (levelPrivateStateProvider (config i) (op i)) s₁ trace out s₂ :=
      ⟨_, _, _, Program.exec_run (fun _ _ => rfl) _ _⟩
    have hopen : s₁.holder (config i).midnightDbName = none := by rwa [hdb i]
    obtain ⟨hout₂, hcontent₂, hholder⟩ := exec_provider hopen hrun
    let d : Performed providerService Databases := ⟨(config i, op i), s₁, trace, out, s₂⟩
    have hd : d.op = (config i, op i) ∧ (Function.update phase i p' i).outcome = some d.outcome := by
      refine ⟨rfl, ?_⟩
      simp only [ProviderOp.perform, hcontent, hdb i] at hout₂
      rw [Function.update_self, hout, ← hout₂]
      rfl
    have hnotMem : i ∉ accessOrder tr := by
      intro hmem
      refine T.outcome_ne_none hmem ?_
      rw [hready]
      rfl
    refine ⟨⟨done ++ [d], s₂, hsession.snoc hrun, ?_, ?_, ?_⟩, ?_, T.step_refused move⟩
    · rwa [hholder]
    · rw [hcontent₂, hcontent', hcontent]
      simp only [ProviderOp.perform, hdb i]
    · rw [accessOrder_snoc_access hcall]
      exact List.rel_append hdone' (.cons hd .nil)
    · rw [accessOrder_snoc_access hcall]
      exact T.nodup.append (List.nodup_singleton i) (by simpa using hnotMem)
  · refine ⟨⟨done, s₁, hsession, hclosed, hcontent.trans hcontent'.symm, ?_⟩, ?_,
      T.step_refused move⟩
    · rw [accessOrder_snoc hcall]
      exact hdone'
    · rw [accessOrder_snoc hcall]
      exact T.nodup

/-! ## Runs -/

omit [SuperJson] in
theorem excludes_start (h : s.holder dbName = none) :
    Excludes config op dbName [] (fun _ => .start) s := by
  constructor
  · exact fun _ => OpPhase.sound_of_id_none rfl
  · intro i j id hid
    cases hid
  · intro id hid
    rw [h] at hid
    cases hid
  · intro i
    simp [opener, OpPhase.lock]
  · intro pre i id r post heq
    simp at heq

omit [DecidableEq ι] in
theorem tookEffect_start (h : s.holder dbName = none) :
    TookEffect config op dbName s [] (fun _ => .start) s := by
  refine ⟨⟨[], s, .nil, h, rfl, .nil⟩, List.nodup_nil, fun i out hout => ?_⟩
  cases hout

/-- However operations on a closed database interleave, each is either refused because another one has
the database open, or it is one of those that run one after the other with the same outcomes and the
same content in the end. -/
theorem concurrent_operations_in_order {P : ι → LevelPromise JsValue}
    (hdb : ∀ i, (config i).midnightDbName = dbName) (closed : s₀.holder dbName = none)
    (run : Run levelEnv (fun _ _ => False) (fun i => levelPrivateStateProvider (config i) (op i)) s₀ tr
      P s) :
    (∃ done s₁, Session (S := providerService) levelEnv s₀ done s₁ ∧ s₁.content = s.content ∧
      List.Forall₂ (fun i d => d.op = (config i, op i) ∧ ∀ out, P i = .ofExcept out → out = d.outcome)
        (accessOrder tr) done) ∧
    (accessOrder tr).Nodup ∧
    (∀ i out, P i = .ofExcept out → i ∈ accessOrder tr ∨
      (out = .error .locked ∧ ∃ id, (i, ⟨.openLevel id, .error .locked⟩) ∈ tr)) ∧
    ∀ pre i id r post, tr = pre ++ (i, ⟨.openLevel id, r⟩) :: post →
      (r = .ok () ↔ opener pre = none) := by
  obtain ⟨phase, ⟨I, T⟩, hfollows⟩ := run.invariant
    (I := fun tr phase s => Excludes config op dbName tr phase s ∧
      TookEffect config op dbName s₀ tr phase s)
    (fun i => follows_provider (config i) (op i))
    ⟨excludes_start closed, tookEffect_start closed⟩
    (fun tr phase s i c r s' h allowed replied => by
      obtain ⟨I, T⟩ := h
      have hsound := I.sound i
      rw [← hdb i] at hsound
      have move := opMove hsound allowed replied
      rw [hdb i] at move
      exact ⟨I.step move, T.step hdb move⟩)
    (fun _ _ _ _ _ h => h.elim)
  have hsettled : ∀ i out, P i = .ofExcept out → (phase i).outcome = some out := by
    intro i out hP
    have hi := hfollows i
    rw [hP] at hi
    have hover : phase i = .ended out := by
      cases out <;> exact hi
    rw [hover]
    rfl
  obtain ⟨done, s₁, hsession, -, hcontent, hdone⟩ := T.session
  refine ⟨⟨done, s₁, hsession, hcontent, hdone.imp fun i d h => ⟨h.1, fun out hP => ?_⟩⟩, T.nodup,
    fun i out hP => T.refused i out (hsettled i out hP), I.opens⟩
  exact Option.some.inj ((hsettled i out hP).symm.trans h.2)

end Moves

namespace Sample

def setAndGet (i : Bool) : ProviderOp := if i then .get id else .set id (.string (js "one"))

/-- The second operation opens the database while the first one has it open. -/
def overlapping : List (Turn Bool) :=
  [.of false, .of false, .of true, .of true, .of false, .of false, .of false, .of false,
    .of true, .of true]

def apart : List (Turn Bool) := List.replicate 6 (.of false) ++ List.replicate 6 (.of true)

def played (schedule : List (Turn Bool)) :=
  play (fun c s => some (levelHandler c s)) (fun _ => none)
    (fun i => levelPrivateStateProvider DEFAULT_CONFIG (setAndGet i)) noDatabases schedule

theorem run_played (schedule : List (Turn Bool)) :
    Run levelEnv (fun _ _ => False) (fun i => levelPrivateStateProvider DEFAULT_CONFIG (setAndGet i))
      noDatabases (played schedule).1 (played schedule).2.1 (played schedule).2.2 :=
  run_play (fun c s r s' h => (Option.some.inj h).symm) (fun s s' h => by cases h) schedule

/-- A `get` that overlaps a `set` of the same database rejects. -/
theorem overlapping_get_refused :
    ∃ tr P s, Run levelEnv (fun _ _ => False)
        (fun i => levelPrivateStateProvider DEFAULT_CONFIG (setAndGet i)) noDatabases tr P s ∧
      P false = .resolve .undefined ∧ P true = .reject .locked :=
  ⟨_, _, _, run_played overlapping, rfl, rfl⟩

theorem concurrent_operations_in_order_apart :
    (∃ done s₁, Session (S := providerService) levelEnv noDatabases done s₁ ∧
      s₁.content = (played apart).2.2.content ∧
      List.Forall₂ (fun i d => d.op = (DEFAULT_CONFIG, setAndGet i) ∧
        ∀ out, (played apart).2.1 i = .ofExcept out → out = d.outcome) [false, true] done) ∧
    (played apart).2.1 true = .resolve (.string (js "one")) := by
  obtain ⟨h, -⟩ := concurrent_operations_in_order (fun _ => rfl) rfl (run_played apart)
  exact ⟨h, rfl⟩

end Sample

end MidnightJs
