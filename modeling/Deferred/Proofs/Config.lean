import Deferred.Executor.State
import Mathlib.Tactic.SplitIfs

/-!
# Which configurations are accepted

Settings made one after the other come to the configuration that gives every field the last value
set for it, or its default. Whether it is accepted, and the first fault that is named if it is not,
can be read off these values, whether they are set one by one, given all at once, or handed over to
start an executor.

* `Config.ofLast` is the configuration of the last values.
* `Config.IsValid` says which configurations are valid, `Config.FirstFault` which fault of another
  one is named.
* `Config.accepted_when_valid`: all ways of making and handing over a configuration agree.
-/

namespace Deferred

namespace Config

variable {c : Config} {a b : Setting}

/-! ## Fields -/

/-- A field of a configuration. -/
inductive Field
  | threadName
  | stackSize
  | maxPending
  | panicStrategy
  | shutdownPolicy
  deriving DecidableEq

namespace Setting

/-- The field that a setting sets. -/
def field : Setting → Field
  | threadName _ => .threadName
  | stackSize _ => .stackSize
  | maxPending _ => .maxPending
  | panicStrategy _ => .panicStrategy
  | shutdownPolicy _ => .shutdownPolicy

/-- The name that a setting gives the worker, if it does. -/
def threadName? : Setting → Option String
  | threadName name => some name
  | _ => none

/-- The stack size that a setting gives, if it does. -/
def stackSize? : Setting → Option (Option Nat)
  | stackSize bytes => some bytes
  | _ => none

/-- The limit that a setting gives the pending tasks, if it does. -/
def maxPending? : Setting → Option (Option Nat)
  | maxPending tasks => some tasks
  | _ => none

/-- The panic strategy that a setting gives, if it does. -/
def panicStrategy? : Setting → Option PanicStrategy
  | panicStrategy strategy => some strategy
  | _ => none

/-- The shutdown policy that a setting gives, if it does. -/
def shutdownPolicy? : Setting → Option ShutdownPolicy
  | shutdownPolicy policy => some policy
  | _ => none

end Setting

/-! ## The last value set -/

section LastOr

variable {α : Type} {value? : Setting → Option α}

/-- The last value that some settings give, or `default` if they give none. -/
def lastOr (value? : Setting → Option α) (default : α) (settings : List Setting) : α :=
  (settings.filterMap value?).getLast?.getD default

theorem lastOr_cons (default : α) (s : Setting) (settings : List Setting) :
    lastOr value? default (s :: settings) = lastOr value? ((value? s).getD default) settings := by
  rw [lastOr, lastOr, List.filterMap_cons]
  cases value? s with
  | none => rfl
  | some value => rw [List.getLast?_cons, Option.getD_some, Option.getD_some]

end LastOr

/-- The configuration that gives every field the last value set for it, or its default. -/
def ofLast (settings : List Setting) : Config where
  threadName := lastOr Setting.threadName? "delayed-worker" settings
  stackSize := lastOr Setting.stackSize? none settings
  maxPending := lastOr Setting.maxPending? none settings
  panicStrategy := lastOr Setting.panicStrategy? .propagate settings
  shutdownPolicy := lastOr Setting.shutdownPolicy? .discard settings

theorem foldl_apply (c : Config) (settings : List Setting) :
    settings.foldl apply c =
      { threadName := lastOr Setting.threadName? c.threadName settings
        stackSize := lastOr Setting.stackSize? c.stackSize settings
        maxPending := lastOr Setting.maxPending? c.maxPending settings
        panicStrategy := lastOr Setting.panicStrategy? c.panicStrategy settings
        shutdownPolicy := lastOr Setting.shutdownPolicy? c.shutdownPolicy settings } := by
  induction settings generalizing c with
  | nil => rfl
  | cons s settings ih =>
    simp only [List.foldl_cons, ih, lastOr_cons]
    -- a setting gives a value to one field, and leaves the others to their defaults
    cases s <;> rfl

theorem ofSettings_eq (settings : List Setting) : ofSettings settings = ofLast settings :=
  foldl_apply {} settings

/-! ## Repeated settings -/

/-- Settings of two fields may be made in either order. -/
theorem apply_comm (c : Config) (h : a.field ≠ b.field) :
    (c.apply a).apply b = (c.apply b).apply a := by
  cases a <;> cases b <;> simp_all [apply, Setting.field]

/-- A setting leaves nothing of the one before it, if that was of the same field. -/
theorem apply_apply (c : Config) (h : a.field = b.field) : (c.apply a).apply b = c.apply b := by
  cases a <;> cases b <;> cases h <;> rfl

/-- A setting leaves nothing of an earlier one of the same field. -/
theorem apply_foldl_apply (c : Config) (middle : List Setting) (h : a.field = b.field) :
    (middle.foldl apply (c.apply a)).apply b = (middle.foldl apply c).apply b := by
  induction middle generalizing c with
  | nil => exact apply_apply c h
  | cons s middle ih =>
    rw [List.foldl_cons, List.foldl_cons]
    by_cases hs : a.field = s.field
    · rw [apply_apply c hs]
    · rw [apply_comm c hs]
      exact ih (c.apply s)

theorem ofSettings_swap (before after : List Setting) (h : a.field ≠ b.field) :
    ofSettings (before ++ a :: b :: after) = ofSettings (before ++ b :: a :: after) := by
  simp only [ofSettings, List.foldl_append, List.foldl_cons, apply_comm _ h]

theorem ofSettings_replaced (before middle after : List Setting) (h : a.field = b.field) :
    ofSettings (before ++ a :: (middle ++ b :: after)) =
      ofSettings (before ++ (middle ++ b :: after)) := by
  simp only [ofSettings, List.foldl_append, List.foldl_cons, apply_foldl_apply _ _ h]

/-! ## Faults -/

/-- What makes a configuration valid. -/
structure IsValid (c : Config) : Prop where
  hasName : c.threadName ≠ ""
  hasNoNul : '\x00' ∉ c.threadName.toList
  takesTasks : c.maxPending ≠ some 0
  hasStack : c.stackSize ≠ some 0

/-- A configuration has a fault. -/
def HasFault (c : Config) : Fault → Prop
  | .emptyName => c.threadName = ""
  | .nulInName => '\x00' ∈ c.threadName.toList
  | .noPending => c.maxPending = some 0
  | .noStack => c.stackSize = some 0

/-- The faults that are named before a fault. -/
def Fault.earlier : Fault → List Fault
  | emptyName => []
  | nulInName => [emptyName]
  | noPending => [emptyName, nulInName]
  | noStack => [emptyName, nulInName, noPending]

/-- A fault is the first one of a configuration. -/
def FirstFault (c : Config) (f : Fault) : Prop :=
  c.HasFault f ∧ ∀ g ∈ f.earlier, ¬ c.HasFault g

theorem fault?_eq_none_iff : c.fault? = none ↔ c.IsValid := by
  rw [fault?]
  split_ifs with hname hnul hpending hstack
  · exact ⟨fun h => (by cases h), fun h => absurd (String.toList_eq_nil_iff.1 hname) h.hasName⟩
  · exact ⟨fun h => (by cases h), fun h => absurd hnul h.hasNoNul⟩
  · exact ⟨fun h => (by cases h), fun h => absurd hpending h.takesTasks⟩
  · exact ⟨fun h => (by cases h), fun h => absurd hstack h.hasStack⟩
  · exact ⟨fun _ => ⟨mt String.toList_eq_nil_iff.2 hname, hnul, hpending, hstack⟩, fun _ => rfl⟩

theorem fault?_eq_some_iff {f : Fault} : c.fault? = some f ↔ c.FirstFault f := by
  rw [fault?]
  split_ifs with hname hnul hpending hstack <;>
    cases f <;> simp_all [FirstFault, HasFault, Fault.earlier]

instance : Decidable c.IsValid := decidable_of_iff _ fault?_eq_none_iff

instance (f : Fault) : Decidable (c.FirstFault f) := decidable_of_iff _ fault?_eq_some_iff

theorem validate_eq_ok_iff : c.validate = .ok () ↔ c.IsValid := by
  rw [validate, ← fault?_eq_none_iff]
  cases c.fault? with
  | none => exact ⟨fun _ => rfl, fun _ => rfl⟩
  | some f => exact ⟨fun h => (by cases h), fun h => (by cases h)⟩

/-- A configuration that is not valid is refused for its first fault. -/
theorem validate_eq_error_iff {e : Error} :
    c.validate = .error e ↔ ∃ f, c.FirstFault f ∧ e = .config f.text := by
  simp only [validate, ← fault?_eq_some_iff]
  cases c.fault? with
  | none => exact ⟨fun h => (by cases h), fun ⟨_, hf, _⟩ => (by cases hf)⟩
  | some f =>
    constructor
    · intro h
      cases h
      exact ⟨f, rfl, rfl⟩
    · rintro ⟨g, hg, rfl⟩
      cases hg
      rfl

/-! ## All ways to a configuration -/

section Build

variable {settings : List Setting}

theorem build_eq (settings : List Setting) :
    build settings = (ofLast settings).validate.map fun _ => ofLast settings := by
  rw [build, ofSettings_eq]
  cases (ofLast settings).validate <;> rfl

theorem build_eq_ok_iff :
    build settings = .ok c ↔ (ofLast settings).IsValid ∧ c = ofLast settings := by
  rw [build_eq, ← validate_eq_ok_iff]
  cases (ofLast settings).validate with
  | error e => exact ⟨fun h => (by cases h), fun h => (by cases h.1)⟩
  | ok _ =>
    rw [Except.map, Except.ok.injEq]
    exact ⟨fun h => ⟨rfl, h.symm⟩, fun h => h.2.symm⟩

theorem build_eq_error_iff {e : Error} :
    build settings = .error e ↔ (ofLast settings).validate = .error e := by
  rw [build_eq]
  cases (ofLast settings).validate with
  | error _ => rw [Except.map, Except.error.injEq, Except.error.injEq]
  | ok _ => exact ⟨fun h => (by cases h), fun h => (by cases h)⟩

end Build

/-- With a fault, no executor is started, whether or not the system would refuse to. -/
theorem start_of_error (telemetry : Telemetry) (clock : Instant) (refusal : Option SystemError)
    {e : Error} (h : c.validate = .error e) :
    Executor.start c telemetry clock refusal = .error e := by
  unfold Executor.start
  rw [h]
  rfl

/-- A valid configuration is refused by the system or not at all. -/
theorem start_of_isValid (telemetry : Telemetry) (clock : Instant) (refusal : Option SystemError)
    (h : c.IsValid) :
    Executor.start c telemetry clock refusal =
      match refusal with
      | some error => .error (.spawnFailed error)
      | none => .ok (.initial c telemetry clock) := by
  unfold Executor.start
  rw [validate_eq_ok_iff.2 h]
  rfl

/-- Settings build the configuration of their last values if and only if that is valid, and
otherwise fail with its first fault. To give these values all at once and validate comes to the
same; to start an executor with them fails in the same way whatever the system says, and otherwise
succeeds unless the system refuses. Settings of two fields may be exchanged, and a setting that a
later one replaces may be left out. -/
theorem accepted_when_valid (settings : List Setting) :
    (∀ c, build settings = .ok c ↔ (ofLast settings).IsValid ∧ c = ofLast settings) ∧
    (∀ e, build settings = .error e ↔ ∃ f, (ofLast settings).FirstFault f ∧ e = .config f.text) ∧
    (ofLast settings).validate = (build settings).map (fun _ => ()) ∧
    (∀ telemetry clock refusal,
      (∀ e, build settings = .error e →
        Executor.start (ofLast settings) telemetry clock refusal = .error e) ∧
      ((ofLast settings).IsValid →
        Executor.start (ofLast settings) telemetry clock none =
          .ok (.initial (ofLast settings) telemetry clock) ∧
        ∀ text,
          Executor.start (ofLast settings) telemetry clock refusal ≠ .error (.config text))) ∧
    (∀ before a b after, settings = before ++ a :: b :: after → a.field ≠ b.field →
      build (before ++ b :: a :: after) = build settings) ∧
    ∀ before a middle b after, settings = before ++ a :: (middle ++ b :: after) →
      a.field = b.field → build (before ++ (middle ++ b :: after)) = build settings := by
  refine ⟨fun c => build_eq_ok_iff, fun e => build_eq_error_iff.trans validate_eq_error_iff, ?_,
    fun telemetry clock refusal => ⟨fun e he => ?_, fun hv => ⟨?_, fun text => ?_⟩⟩, ?_, ?_⟩
  · rw [build_eq]
    cases (ofLast settings).validate <;> rfl
  · exact start_of_error telemetry clock refusal (build_eq_error_iff.1 he)
  · exact start_of_isValid telemetry clock none hv
  · rw [start_of_isValid telemetry clock refusal hv]
    cases refusal with
    | none => exact fun h => by cases h
    | some refusal => exact fun h => by cases h
  · rintro before a b after rfl hf
    rw [build, build, ofSettings_swap before after hf]
  · rintro before a middle b after rfl hf
    rw [build, build, ofSettings_replaced before middle after hf]

/-- A name that is empty gives way to one with a NUL, which is named before a stack of no size; a
sound name after it, and a stack size, make the configuration valid, whatever the strategy. -/
theorem accepted_when_valid_at_last :
    let faulty : List Setting :=
      [.threadName "", .maxPending (some 0), .stackSize (some 0), .threadName "a\x00"]
    let mended := faulty ++
      [.stackSize (some 65536), .maxPending none, .panicStrategy .abort, .threadName "a"]
    let config : Config :=
      { threadName := "a", stackSize := some 65536, panicStrategy := .abort }
    let error := Error.config "thread_name must not contain NUL bytes"
    build faulty = .error error ∧ (ofLast faulty).validate = .error error ∧
      Executor.start (ofLast faulty) .stub ⟨0⟩ (some .tryAgain) = .error error ∧
      build [.maxPending (some 0), .stackSize (some 0), .threadName "a\x00"] = build faulty ∧
      build [.threadName "", .stackSize (some 0), .maxPending (some 0), .threadName "a\x00"] =
        build faulty ∧
      (ofLast mended).IsValid ∧ build mended = .ok config ∧
      Executor.start (ofLast mended) .stub ⟨0⟩ none = .ok (.initial config .stub ⟨0⟩) ∧
      ∀ text, Executor.start (ofLast mended) .stub ⟨0⟩ (some .tryAgain) ≠ .error (.config text) := by
  intro faulty mended config error
  obtain ⟨-, herror, hvalidate, hstart, hswap, hreplaced⟩ := accepted_when_valid faulty
  obtain ⟨hok, -, -, hmended, -⟩ := accepted_when_valid mended
  have hbuild : build faulty = .error error := (herror error).2 ⟨.nulInName, by decide, rfl⟩
  have hvalid : (ofLast mended).IsValid := by decide
  obtain ⟨hstarted, hconfig⟩ := (hmended .stub ⟨0⟩ (some .tryAgain)).2 hvalid
  exact ⟨hbuild, by rw [hvalidate, hbuild]; rfl, (hstart .stub ⟨0⟩ _).1 error hbuild,
    hreplaced [] (.threadName "") [.maxPending (some 0), .stackSize (some 0)]
      (.threadName "a\x00") [] rfl rfl,
    hswap [.threadName ""] (.maxPending (some 0)) (.stackSize (some 0)) [.threadName "a\x00"] rfl
      (by decide),
    hvalid, (hok _).2 ⟨hvalid, rfl⟩, hstarted, hconfig⟩

end Config

end Deferred
