import MidnightJs.Foundations.PlainObject
import MidnightJs.LevelProvider.SequentialRuns

/-! # The in-memory private state provider

`testkit-js/src/contract/in-memory-private-state-provider.ts`: a `Map` of private states and an
object of signing keys. Every operation does its work when it is called. -/

namespace MidnightJs.TestkitJs
open Foundations Foundations.Js Foundations.Async
set_option autoImplicit false

structure InMemoryPrivateStates where
  record : List (PrivateStateId × JsValue)
  signingKeys : PlainObject SigningKey

/-- What an operation resolves with: a value, or what `Object.prototype` has under a name. -/
inductive Reply
  | value (v : JsValue)
  | inherited (name : JsString)

/-- `signingKey ?? null`. -/
def Reply.ofProperty (p : Property SigningKey) : Reply :=
  match p with
  | .own signingKey => .value (.string signingKey)
  | .inherited name => .inherited name
  | .undefined => .value .null

namespace InMemoryPrivateStates

def new : InMemoryPrivateStates := ⟨[], .empty⟩

/-- The value of `record.get(key)`. -/
def recordGet (s : InMemoryPrivateStates) (key : PrivateStateId) : JsValue :=
  (OrderedMap.get s.record key).getD .undefined

/-- The methods of `inMemoryPrivateStateProvider()`. -/
def perform (s : InMemoryPrivateStates) (op : ProviderOp) : Reply × InMemoryPrivateStates :=
  match op with
  | .set key state =>
    (.value .undefined, { s with record := OrderedMap.set s.record key state })
  | .get key =>
    (.value (if (s.recordGet key).isNullish then .null else s.recordGet key), s)
  | .remove key => (.value .undefined, { s with record := OrderedMap.delete s.record key })
  | .clear => (.value .undefined, { s with record := [] })
  | .setSigningKey contractAddress signingKey =>
    (.value .undefined, { s with signingKeys := s.signingKeys.assign contractAddress signingKey })
  | .getSigningKey contractAddress => (.ofProperty (s.signingKeys.read contractAddress), s)
  | .removeSigningKey contractAddress =>
    (.value .undefined, { s with signingKeys := s.signingKeys.delete contractAddress })
  | .clearSigningKeys =>
    (.value .undefined,
      { s with signingKeys := s.signingKeys.keys.foldl PlainObject.delete s.signingKeys })

/-- The provider after some operations. -/
def after (s : InMemoryPrivateStates) (ops : List ProviderOp) : InMemoryPrivateStates :=
  ops.foldl (fun s op => (s.perform op).2) s

/-! ## The provider and the two maps -/

/-- No key is ever stored under `__proto__`. -/
structure Represents (s : InMemoryPrivateStates) (m : PrivateStore JsValue) : Prop where
  record : ∀ key, OrderedMap.get s.record key = m.privateStates key
  signingKeys : ∀ a, a ≠ PROTO → s.signingKeys.lookup a = m.signingKeys a

variable {s : InMemoryPrivateStates} {m : PrivateStore JsValue} {op : ProviderOp}

theorem represents_new : Represents new Sample.emptyStore := ⟨fun _ => rfl, fun _ _ => rfl⟩

theorem Represents.perform (h : Represents s m) (op : ProviderOp) :
    Represents (s.perform op).2 (op.effect m) := by
  cases op with
  | get key => exact h
  | getSigningKey a => exact h
  | set key state =>
    refine ⟨fun key' => ?_, h.signingKeys⟩
    rw [InMemoryPrivateStates.perform, OrderedMap.get_set, h.record]
    simp only [ProviderOp.effect, PrivateStore.set, Function.update_apply, eq_comm]
  | remove key =>
    refine ⟨fun key' => ?_, h.signingKeys⟩
    rw [InMemoryPrivateStates.perform, OrderedMap.get_delete, h.record]
    simp only [ProviderOp.effect, PrivateStore.remove, Function.update_apply]
  | clear => exact ⟨fun _ => rfl, h.signingKeys⟩
  | setSigningKey a k =>
    refine ⟨h.record, fun a' ha' => ?_⟩
    unfold InMemoryPrivateStates.perform ProviderOp.effect PrivateStore.setSigningKey
    dsimp only
    by_cases ha : a = PROTO
    · subst ha
      rw [PlainObject.assign_proto, Function.update_of_ne ha', h.signingKeys a' ha']
    · rw [PlainObject.lookup_assign _ ha, Function.update_apply, Function.update_apply,
        h.signingKeys a' ha']
  | removeSigningKey a =>
    refine ⟨h.record, fun a' ha' => ?_⟩
    unfold InMemoryPrivateStates.perform ProviderOp.effect PrivateStore.removeSigningKey
    dsimp only
    rw [PlainObject.lookup_delete, Function.update_apply, Function.update_apply,
      h.signingKeys a' ha']
  | clearSigningKeys =>
    refine ⟨h.record, fun a' _ => ?_⟩
    exact congrFun (s.signingKeys.lookup_deleteKeys fun _ => Iff.rfl) a'

theorem Represents.after (h : Represents s m) (ops : List ProviderOp) :
    Represents (s.after ops) (ProviderOp.after m ops) := by
  induction ops generalizing s m with
  | nil => exact h
  | cons op ops ih => exact ih (h.perform op)

/-- The operation reads nothing that is `undefined`, and no name of `Object.prototype` for which
there is no own signing key. -/
def Ordinary (op : ProviderOp) (m : PrivateStore JsValue) : Prop :=
  match op with
  | .get key => m.privateStates key ≠ some .undefined
  | .getSigningKey a => a ∈ objectPrototype → a ≠ PROTO ∧ (m.signingKeys a).isSome
  | _ => True

theorem Represents.reply_iff (h : Represents s m) (op : ProviderOp) :
    (s.perform op).1 = .value (op.answer m) ↔ Ordinary op m := by
  cases op with
  | get key =>
    have hget : s.recordGet key = (m.privateStates key).getD .undefined := by
      rw [recordGet, h.record]
    unfold InMemoryPrivateStates.perform Ordinary
    dsimp only
    rw [hget]
    simp only [Reply.value.injEq, ProviderOp.answer, ProviderOp.isGet, ↓reduceIte, ProviderOp.entry]
    cases hm : m.privateStates key with
    | none => exact iff_of_true rfl nofun
    | some v =>
      cases v with
      | undefined => exact iff_of_false (by simp [JsValue.isNullish]) (fun hne => hne rfl)
      | _ => exact iff_of_true rfl (by simp)
  | getSigningKey a =>
    unfold InMemoryPrivateStates.perform Ordinary
    dsimp only
    simp only [ProviderOp.answer, ProviderOp.isGet, ↓reduceIte, ProviderOp.entry]
    rw [PlainObject.read_eq]
    by_cases ha : a = PROTO
    · subst ha
      rw [PlainObject.lookup_proto]
      simp [proto_mem, Reply.ofProperty]
    · rw [h.signingKeys a ha]
      cases hkey : m.signingKeys a with
      | some k => exact iff_of_true rfl fun _ => ⟨ha, rfl⟩
      | none =>
        by_cases hmem : a ∈ objectPrototype
        · simp [hmem, Reply.ofProperty]
        · simp [hmem, Reply.ofProperty]
  | _ => exact iff_of_true rfl trivial

/-- Every operation of the run is replied as the two maps answer it. -/
def AnswersAsMaps (ops : List ProviderOp) : Prop :=
  ∀ pre op post, ops = pre ++ op :: post →
    ((new.after pre).perform op).1 = .value (op.answer (ProviderOp.after Sample.emptyStore pre))

/-- A run answers as the two maps exactly if it never reads a private state `undefined`, nor the key
of an address named as a property of `Object.prototype` unless that address has a key and is not
`__proto__`. -/
theorem in_memory_provider_refines_maps (ops : List ProviderOp) :
    AnswersAsMaps ops ↔ ∀ pre op post, ops = pre ++ op :: post →
      Ordinary op (ProviderOp.after Sample.emptyStore pre) := by
  refine forall_congr' fun pre => forall_congr' fun op => forall_congr' fun post =>
    forall_congr' fun _ => ?_
  exact (represents_new.after pre).reply_iff op

/-- An address named as a property of the prototype is found although it has no key. -/
theorem prototype_name_found : ¬ AnswersAsMaps [.getSigningKey (js "constructor")] := by
  rw [in_memory_provider_refines_maps]
  intro h
  have hordinary := h [] _ [] rfl (by decide)
  cases hordinary.2

end InMemoryPrivateStates

/-! ## Both providers -/

section Level

variable [SuperJson] {config : LevelPrivateStateProviderConfig} {s₀ s : Databases}
  {done : List (Performed providerService Databases)}

/-- Nothing that is stored is `null` or `undefined`, and no address is named as a property of every
object. -/
def Usual (op : ProviderOp) : Prop :=
  match op with
  | .set _ state => state.isNullish = false
  | .getSigningKey a => a ∉ objectPrototype
  | _ => True

omit [SuperJson] in
theorem ordinary_of_usual {pre : List ProviderOp} {op : ProviderOp} (hpre : ∀ op ∈ pre, Usual op)
    (hop : Usual op) : InMemoryPrivateStates.Ordinary op (ProviderOp.after Sample.emptyStore pre) := by
  cases op with
  | get key =>
    intro hundefined
    obtain ⟨pre', post, rfl, -⟩ | ⟨hnone, -⟩ := ProviderOp.privateStates_after hundefined
    · have hset := hpre (.set key .undefined) (by simp)
      cases hset
    · cases hnone
  | getSigningKey a => exact fun hmem => absurd hmem hop
  | _ => trivial

/-- The in-memory provider, given the operations of the session from the beginning, replies to each as
the Level provider did. -/
def ReplyTheSame (done : List (Performed providerService Databases)) : Prop :=
  ∀ pre d post, done = pre ++ d :: post → ∃ v, d.outcome = .ok v ∧
    ((InMemoryPrivateStates.new.after (pre.map fun d => d.op.2)).perform d.op.2).1 = .value v

/-- In a run of usual operations from the beginning, the Level provider and the in-memory provider
reply the same. -/
theorem providers_reply_the_same (apart : config.privateStateStoreName ≠ config.signingKeyStoreName)
    (h₀ : Represents config s₀ Sample.emptyStore) (session : Session levelEnv s₀ done s)
    (hconfig : ∀ d ∈ done, d.op.1 = config) (hlossless : ∀ d ∈ done, d.op.2.access.Lossless)
    (husual : ∀ d ∈ done, Usual d.op.2) : ReplyTheSame done := by
  have hstorable : ∀ d ∈ done, d.op.2.access.Storable := by
    intro d hd
    have hop := husual d hd
    cases hcase : d.op.2 with
    | set id state =>
      rw [hcase] at hop
      exact hop
    | setSigningKey a k => rfl
    | _ => trivial
  have hmaps := answersAsMaps_of_storable h₀ apart session hconfig hlossless hstorable
  intro pre d post hdone
  refine ⟨_, hmaps.answers pre d post hdone, ?_⟩
  refine (InMemoryPrivateStates.represents_new.after _).reply_iff d.op.2 |>.mpr ?_
  refine ordinary_of_usual (fun op hop => ?_) (husual d (by simp [hdone]))
  obtain ⟨d', hd', rfl⟩ := List.mem_map.mp hop
  exact husual d' (by simp [hdone, hd'])

end Level

open MidnightJs.Sample in
theorem providers_reply_the_same_stored : ReplyTheSame (session storedAndRemoved).1 := by
  have hmem : ∀ d ∈ (session storedAndRemoved).1,
      ∃ op ∈ storedAndRemoved, (DEFAULT_CONFIG, op) = d.op :=
    fun d hd => List.mem_map.mp (mem_perform hd).1
  refine providers_reply_the_same defaults_stores_ne represents_emptyStore
    (session_perform (fun _ _ => rfl) _ _) ?_ ?_ ?_
  · intro d hd
    obtain ⟨op, -, hop⟩ := hmem d hd
    rw [← hop]
  · intro d hd
    obtain ⟨op, hin, hop⟩ := hmem d hd
    rw [← hop]
    simp only [storedAndRemoved, List.mem_cons, List.not_mem_nil, or_false] at hin
    rcases hin with rfl | rfl | rfl | rfl | rfl | rfl | rfl <;> trivial
  · intro d hd
    obtain ⟨op, hin, hop⟩ := hmem d hd
    rw [← hop]
    simp only [storedAndRemoved, List.mem_cons, List.not_mem_nil, or_false] at hin
    have hid : Sample.id ∉ objectPrototype := by decide
    rcases hin with rfl | rfl | rfl | rfl | rfl | rfl | rfl <;> trivial

end MidnightJs.TestkitJs
