import Deferred.Proofs.Executor.Settlement

/-!
# Canceling all tasks

A call of `cancelAll` removes what is pending in its first step, before it runs any callback. What
its callbacks do afterwards to the queue, be it that they schedule tasks or cancel in turn, does not
change which tasks it calls back, nor in which order.

* `CancelsAll`: what there is to say of such a call.
* `Answered.told_count`: its answer is how many tasks it has removed.
* `cancels_all_pending`: this holds of every call, wherever it is made.
-/

namespace Deferred

namespace Executor

variable {e called last : Executor} {t : ThreadId} {stack : List Frame} {taken : Queue Script}

/-- A thread that is told how many tasks it has canceled has canceled all of them. -/
theorem Answered.told_count (h : Answered called taken .cancelAll t stack last) :
    ∃ before closed, called.Reachable before ∧ closed.Reachable last ∧
      before.move? (.step t) = some closed ∧ closed.activity? t = some { stack } ∧
      closed.trace.head? = some ⟨t, answerEvent .cancelAll stack (.count taken.size)⟩ ∧
      closed.telemetry = before.telemetry.update (·.recordCanceled taken.size.toUInt64) ∧
      (before.telemetry ≠ .stub → closed.snapshot =
        { before.snapshot with canceled := before.snapshot.canceled + taken.size.toUInt64 }) := by
  obtain ⟨before, closed, hb, hcompletes, hl⟩ := h.ended
  exact ⟨before, closed, hb, hl, hcompletes.move, hcompletes.back, hcompletes.told,
    hcompletes.telemetry, hcompletes.counted⟩

/-- What comes of a call of `cancelAll` that a thread makes in the state `e` from above `stack`, if
its first step leads to the state `called`. -/
structure CancelsAll (e : Executor) (t : ThreadId) (stack : List Frame) (called : Executor) :
    Prop where
  /-- The first step removes what is pending, and that is all. -/
  removes : called =
    { e with
      guarded := { e.guarded with pending := .empty e.guarded.pending.limit }
      trace := ⟨t, .removed e.guarded.pending.ids⟩ :: e.trace }.setActivity
      ⟨.settle (.ofQueue .cancelAll e.guarded.pending), stack⟩ t
  perm : e.guarded.pending.drain.Perm e.guarded.pending.tasks
  settles : called.SettlesAll e.guarded.pending .cancelAll t stack
  /-- If the call is answered, then with the number of the tasks, when each has been called back
  that has a callback. -/
  answers : ∀ last, Answered called e.guarded.pending .cancelAll t stack last →
    last.calledBack e.guarded.pending.has = callbackIds e.guarded.pending.drain ∧
      ∃ before closed, called.Reachable before ∧ closed.Reachable last ∧
        before.move? (.step t) = some closed ∧ closed.activity? t = some { stack } ∧
        closed.trace.head? =
          some ⟨t, answerEvent .cancelAll stack (.count e.guarded.pending.size)⟩ ∧
        closed.telemetry =
          before.telemetry.update (·.recordCanceled e.guarded.pending.size.toUInt64) ∧
        (before.telemetry ≠ .stub → closed.snapshot =
          { before.snapshot with
            canceled := before.snapshot.canceled + e.guarded.pending.size.toUInt64 })

theorem Calls.eq_cancelAll (hc : e.Calls t .cancelAll stack called) (hx : e.access = .available) :
    called = e.beginCancelAll t stack := by
  rw [hc.eq_begin]
  simp only [begin, hx]

section Runs

variable {config : Config} {telemetry : Telemetry} {clock : Instant} {start : Executor}

/-- **Canceling all.** A call of `cancelAll`, made by a caller or by a callable at any depth,
removes exactly what is pending before it runs any callback. It then runs the callbacks of those
tasks on its own thread, one after the other, by deadline and then by number; it begins none of
their actions, then or later. Between the callbacks it touches neither the queue nor any other
thread. Where panics are swallowed it is answered with the number of the tasks when all callbacks
have been run; where they pass, the first one to leave a callback leaves the call by the next step,
with the same payload, and nothing is counted or called back by it any more. The threads' own steps
bring it to its end, or a panic ends the process. -/
theorem cancels_all_pending (hs : Executor.start config telemetry clock = .ok start)
    (hr : start.Reachable e) (hc : e.Calls t .cancelAll stack called)
    (hx : e.access = .available) : e.CancelsAll t stack called := by
  have hbegin := hc.eq_cancelAll hx
  have ha : called.activity? t =
      some ⟨.settle (.ofQueue .cancelAll e.guarded.pending), stack⟩ := by
    rw [hbegin, beginCancelAll, activity?_setActivity_self]
    rfl
  obtain ⟨hremoves, -⟩ :=
    removes_of_cancelAll hr hc ha (.inl ⟨List.mem_singleton_self _, rfl⟩)
  refine ⟨?_, e.guarded.pending.perm_drain, settlesAll_of_removes hs hremoves ha,
    fun last hanswered => ⟨hanswered.called, hanswered.told_count⟩⟩
  rw [hbegin]
  rfl

end Runs

/-- A caller cancels two tasks. The callback of the first one schedules a task, which stays pending,
and then its panic leaves the call; the other callback is never run, and nothing is counted as
canceled. -/
theorem cancels_all_pending_unwound :
    ∃ e called last, (initial {} (.kept {}) ⟨0⟩).Reachable e ∧
      e.Calls (.caller 0) .cancelAll [] called ∧ called.Reachable last ∧ e.CancelsAll (.caller 0) [] called ∧
      callbackIds e.guarded.pending.drain = [⟨2⟩, ⟨1⟩] ∧
      last.calledBack e.guarded.pending.has = [⟨2⟩] ∧ last.guarded.pending.ids = [⟨3⟩] ∧
      last.snapshot.canceled = 0 ∧
      last.trace.head? = some ⟨.caller 0, .unwound (.literal "boom")⟩ ∧
      Unwound called e.guarded.pending (.caller 0) [] (.literal "boom") ⟨2⟩ last := by
  obtain ⟨e, called, before, closed, last, batch, script, he, hc, hx, hb, ha, hraise, hid, hm, hl,
      hids, hcalled, hpending, hcount, htold⟩ : ∃ e called before closed last batch script,
      (initial {} (.kept {}) ⟨0⟩).moves? [
        .call 0 (.schedule { label := "late", due := .instant ⟨2000⟩, onCancel := some .done }),
        .step (.caller 0), .step (.caller 0), .step (.caller 0),
        .call 0 (.schedule
          { label := "early", due := .instant ⟨1000⟩,
            onCancel := some
              (.schedule "again" (.instant ⟨4000⟩) .done (.panic (.literal "boom") .done)) }),
        .step (.caller 0), .step (.caller 0), .step (.caller 0)] = some e ∧
      e.Calls (.caller 0) .cancelAll [] called ∧ e.access = .available ∧
      called.moves? (List.replicate 5 (.step (.caller 0))) = some before ∧
      before.activity? (.caller 0) = some { stack := [.callback ⟨2⟩ batch script] } ∧
      script.head = .raise (.literal "boom") ∧ ⟨2⟩ ∈ e.guarded.pending.ids ∧
      before.move? (.step (.caller 0)) = some closed ∧
      closed.move? (.step (.caller 0)) = some last ∧
      callbackIds e.guarded.pending.drain = [⟨2⟩, ⟨1⟩] ∧
      last.calledBack e.guarded.pending.has = [⟨2⟩] ∧ last.guarded.pending.ids = [⟨3⟩] ∧
      last.snapshot.canceled = 0 ∧
      last.trace.head? = some ⟨.caller 0, .unwound (.literal "boom")⟩ := by
    refine ⟨_, _, _, _, _, _, _, rfl, .caller rfl, rfl, rfl, rfl, rfl, ?_, rfl, rfl,
      ?_, ?_, ?_, rfl, rfl⟩ <;> decide
  have hs : Executor.start {} (.kept {}) ⟨0⟩ = .ok _ := rfl
  have hr := Reachable.refl.of_moves _ he
  have hbefore := Reachable.refl.of_moves _ hb
  have hcancels := cancels_all_pending hs hr hc hx
  have hpasses : called.config.panicStrategy = .propagate := by
    rw [config_of_start hs (hc.reachable hr)]
  obtain ⟨closed', hescapes, hunwound⟩ :=
    hcancels.settles.escapes hpasses before _ _ _ batch hbefore ha hid ⟨script, .inr ⟨rfl, hraise⟩⟩
  obtain rfl := Option.some.inj (hescapes.move.symm.trans hm)
  have hlast := (hbefore.move _ hm).move _ hl
  exact ⟨e, called, last, hr, hc, hlast, hcancels, hids, hcalled, hpending, hcount, htold,
    hunwound last (.move _ .refl hl)⟩

end Executor

end Deferred
