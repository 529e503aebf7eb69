import CloudBalancer.Proofs.AuditTrail
import CloudBalancer.Proofs.Confluence
import CloudBalancer.Proofs.Upkeep

/-!
No success is reported before all changes of rules are applied. Every step of an elastic balancer
that grants or withdraws rules waits for each group in turn, also where the rules turned out to be
there, or to be gone, already; a group with nothing to change is not waited for. The other steps
have nothing to do with groups.
-/

namespace CloudBalancer

namespace Reconcile.Elastic

section Quiet

variable {name : String} (d p : ElasticPort)

theorem quiet_describe (name : String) : (describe .elastic name).Quiet :=
  (within_describe (k := .elastic) rfl).imp fun _ _ => trivial

theorem quiet_describeExisting (name : String) : (describeExisting .elastic name).Quiet :=
  (within_describeExisting (k := .elastic) rfl).imp fun _ _ => trivial

theorem quiet_registerPort : (registerPort (k := .elastic) name p).Quiet :=
  within_registerPort (k := .elastic) rfl

theorem quiet_deletePort : (deletePort (k := .elastic) name p).Quiet :=
  within_deletePort (k := .elastic) rfl

theorem quiet_updateSettings : (updateSettings (k := .elastic) d p).Quiet :=
  within_updateSettings (k := .elastic) rfl

theorem quiet_configureHealthCheck : (configureHealthCheck (k := .elastic) p).Quiet :=
  within_configureHealthCheck (k := .elastic) rfl

theorem quiet_registerBackends (backends : List Backend) :
    (registerBackends (k := .elastic) p backends).Quiet :=
  within_registerBackends (k := .elastic) rfl

theorem quiet_setFilter (filters : List String) : (setFilter (k := .elastic) d filters).Quiet :=
  within_setFilter (k := .elastic) (fun _ => rfl) filters

theorem quiet_deregisterLeaving (backends : List Backend) :
    (deregisterLeaving p backends).Quiet := by
  have asked : (Job.remoteUnless .instanceNotFound .api (.ofPort p)
      (.deregisterBackends .elastic p backends)).Within
        ⟨fun c => c.regardsGroups = false, fun _ _ => True⟩ fun _ => True := .callUnless _ _ rfl
  exact asked.bind fun answer _ => by cases answer <;> trivial

theorem quiet_createPorts (desired : List ElasticPort) : (createPorts name desired).Quiet := by
  cases desired with
  | nil => trivial
  | cons first rest =>
      have creates : (createPort (k := .elastic) name first).Quiet :=
        within_createPort (k := .elastic) rfl
      exact Job.Within.bind creates fun _ _ => .forEach fun p _ => quiet_registerPort p

end Quiet

variable {target : Target} {group : String}

theorem awaits_groupsOf (backends : List Backend) :
    (groupsOf target backends).Awaits .calm .calm := by
  unfold groupsOf
  split
  · rfl
  · exact (Job.Awaits.remote _ fun _ => rfl).bind fun _ => rfl

theorem awaits_groupsOfLeaving (backends : List Backend) :
    (groupsOfLeaving target backends).Awaits .calm .calm := by
  unfold groupsOfLeaving
  split
  · rfl
  · exact (Job.Awaits.remoteUnless _ _ fun _ => rfl).bind fun _ => rfl

/-- After a change of a group, further ones of the same group are in turn. -/
theorem awaits_grant {start : Upkeep} (turn : start.change group = .changed group) (rule : Rule) :
    (grant target group rule).Awaits start (.changed group) := by
  have asks : (Job.remoteUnless .duplicateRule .api target (.authorize group rule)).Awaits start
      (.changed group) := .remoteUnless _ _ fun _ => turn
  exact asks.bind fun answer => by cases answer <;> rfl

theorem awaits_withdraw {start : Upkeep} (turn : start.change group = .changed group)
    (rule : Rule) : (withdraw target group rule).Awaits start (.changed group) := by
  have asks : (Job.remoteUnless .ingressNotFound .api target (.revoke group rule)).Awaits start
      (.changed group) := .remoteUnless _ _ fun _ => turn
  exact asks.bind fun answer => by cases answer <;> rfl

/-- Some changes of a group, and then the wait for them. -/
theorem awaits_changes {rules : List Rule} {step : Rule → Job Unit} (some_rule : rules ≠ [])
    (steps : ∀ start : Upkeep, start.change group = .changed group →
      ∀ rule, (step rule).Awaits start (.changed group)) :
    (do
      Job.forEach rules step
      awaitApplied target group).Awaits .calm .calm := by
  obtain ⟨first, rest, rfl⟩ := List.exists_cons_of_ne_nil some_rule
  have again : (Upkeep.changed group).change group = .changed group := by simp [Upkeep.change]
  have waits : (awaitApplied target group).Awaits (.changed group) .calm :=
    .remote _ fun _ => by simp [Upkeep.after]
  have changes : (Job.forEach (first :: rest) step).Awaits .calm (.changed group) :=
    (steps .calm rfl first).bind fun _ => .forEach (steps _ again)
  exact changes.bind fun _ => waits

theorem awaits_authorize (groups : List String) (rules : List Rule) :
    (authorize target groups rules).Awaits .calm .calm := by
  unfold authorize
  split
  · rfl
  · next some_rule =>
    exact .forEach fun group => awaits_changes (by simpa using some_rule) fun _ => awaits_grant

theorem awaits_revoke (groups : List String) (rules : List Rule) (retained : List Grant) :
    (revoke target groups rules retained).Awaits .calm .calm := by
  refine .forEach fun group => ?_
  dsimp only
  split
  · rfl
  · next some_rule => exact awaits_changes (by simpa using some_rule) fun _ => awaits_withdraw

theorem awaits_grantsOf (topology : ElasticPort) (ports : List ElasticPort) :
    (grantsOf target topology ports).Awaits .calm .calm := by
  induction ports with
  | nil => rfl
  | cons p rest ih =>
      exact (Job.Awaits.ofExcept _).bind fun rules => (awaits_groupsOf _).bind fun groups =>
        ih.bind fun _ => rfl

theorem awaits_registerTargets (view : ElasticPort) (backends : List Backend) :
    (registerTargets view backends).Awaits .calm .calm :=
  (Job.Awaits.ofQuiet (quiet_registerBackends view backends)).bind fun _ =>
    (Job.Awaits.ofExcept _).bind fun rules => (awaits_groupsOf _).bind fun groups =>
      awaits_authorize groups rules

theorem awaits_deregisterTargets (view : ElasticPort) (backends remaining : List Backend)
    (retained : List Grant) :
    (deregisterTargets view backends remaining retained).Awaits .calm .calm := by
  refine (Job.Awaits.ofQuiet (quiet_deregisterLeaving view backends)).bind fun _ =>
    (Job.Awaits.ofExcept _).bind fun rules => (awaits_groupsOfLeaving _).bind fun answer => ?_
  cases answer with
  | none => rfl
  | some groups => exact (awaits_groupsOf _).bind fun used => awaits_revoke _ rules retained

theorem awaits_refreshRules (current view : ElasticPort) (retained : List Grant) :
    (refreshRules current view retained).Awaits .calm .calm := by
  refine (Job.Awaits.ofExcept _).bind fun old => (Job.Awaits.ofExcept _).bind fun new => ?_
  dsimp only
  split
  · rfl
  · exact (awaits_groupsOf _).bind fun groups => (awaits_authorize groups _).bind fun _ =>
      awaits_revoke groups _ retained

theorem attended_configureNewPort (d p : ElasticPort) :
    Job.Attended [configureHealthCheck (k := .elastic) d,
      if d.backends.isEmpty then return else registerTargets (ruleView d p) d.backends,
      setFilter (k := .elastic) d []] .calm := by
  refine .inl ⟨quiet_configureHealthCheck d, .inr ⟨?_, ?_⟩⟩
  · split
    · rfl
    · exact awaits_registerTargets _ _
  · exact List.forall_mem_singleton.2 (quiet_setFilter d [])

theorem awaits_create (name : String) (desired : List ElasticPort) :
    (create name desired).Awaits .calm := by
  refine (Program.Awaits.ofJob (.ofQuiet (quiet_createPorts desired))).bind fun _ =>
    (Program.Awaits.ofJob (.ofQuiet (quiet_describeExisting name))).bind fun current =>
      Program.Awaits.bind (.forEach fun p => ?_) fun _ => rfl
  exact (Program.Awaits.ofExcept _).bind fun d => .group _ (attended_configureNewPort d p)

variable {name : String}

theorem awaits_deleteStale (desired : List ElasticPort) (p : ElasticPort) :
    (deleteStale name desired p).Awaits .calm .calm := by
  have deletes : (deletePort (k := .elastic) name p).Awaits .calm .calm :=
    .ofQuiet (quiet_deletePort p)
  unfold deleteStale
  split
  · exact deletes
  · exact (awaits_grantsOf p _).bind fun retained =>
      (awaits_deregisterTargets p p.backends [] retained).bind fun _ => deletes

theorem awaits_syncPorts (desired current : List ElasticPort) :
    (syncPorts name desired current).Awaits .calm .calm := by
  unfold syncPorts
  dsimp only
  split
  · rfl
  · refine Job.Awaits.bind (.forEach fun p => ?registers) fun _ =>
      Job.Awaits.bind (.forEach fun p => awaits_deleteStale desired p) fun _ =>
        .ofQuiet (quiet_describeExisting name)
    exact (Job.Awaits.ofQuiet (quiet_registerPort p)).bind fun _ =>
      .ofQuiet (quiet_configureHealthCheck p)

theorem awaits_syncPort (all : List ElasticPort) (d p : ElasticPort) :
    (syncPort all d p).Awaits .calm .calm := by
  have retains : (retention all d p).Awaits .calm .calm := by
    unfold retention
    split
    · exact awaits_grantsOf p _
    · rfl
  have checks (retained : List Grant) : (changeCheck d p retained).Awaits .calm .calm := by
    unfold changeCheck
    split
    · refine (Job.Awaits.ofQuiet (quiet_configureHealthCheck d)).bind fun _ => ?_
      split
      · rfl
      · exact awaits_refreshRules p (ruleView d p) retained
    · rfl
  have joins : (join d p).Awaits .calm .calm := by
    unfold join
    split
    · rfl
    · exact awaits_registerTargets _ _
  have leaves (retained : List Grant) : (leave d p retained).Awaits .calm .calm := by
    unfold leave
    split
    · rfl
    · exact awaits_deregisterTargets _ _ _ retained
  rw [syncPort_eq]
  exact (Job.Awaits.ofQuiet (quiet_updateSettings d p)).bind fun _ => retains.bind fun retained =>
    (checks retained).bind fun _ => joins.bind fun _ => (leaves retained).bind fun _ =>
      .ofQuiet (quiet_setFilter d p.filters)

theorem awaits_converge (name : String) (desired : List ElasticPort) :
    (converge name desired).Awaits .calm := by
  refine (Program.Awaits.ofJob (.ofQuiet (quiet_describe name))).bind fun answer => ?_
  cases answer with
  | none => exact (awaits_create name desired).bind fun _ => .ofExcept _
  | some current =>
      refine (Program.Awaits.ofJob (awaits_syncPorts desired current)).bind fun ports => ?_
      refine Program.Awaits.bind (.ofJob (.forEach fun p => ?_)) fun _ => .ofExcept _
      exact (Job.Awaits.ofExcept _).bind fun d => awaits_syncPort desired d p

theorem awaits_reconcile (name : String) (desired : List ElasticPort) :
    (reconcile name desired).Awaits .calm := by
  unfold reconcile
  split
  · trivial
  · exact .reporting name (awaits_converge name desired)

theorem awaits_delete (name : String) : (delete name).Awaits .calm .calm := by
  refine (Job.Awaits.ofQuiet (quiet_describe name)).bind fun answer => ?_
  cases answer with
  | none => rfl
  | some ports =>
      exact .forEach fun p => .optional (awaits_deregisterTargets p p.backends [] [])
        (.ofQuiet (quiet_deletePort p))

end Reconcile.Elastic

open Reconcile

/-- An elastic reconciliation or deletion that succeeds has waited for the changes of each group
before it turned to another one, and waited for no group that it had not just changed; however the
calls are delayed, answered or refused. -/
theorem rule_changes_awaited (name : String) (config : Config) (w : World) :
    (∀ desired status, ((reconcile name .elastic desired).simulate config w).1 = .ok status →
      (reconcile name .elastic desired).AwaitsChanges config w) ∧
    (((Program.ofJob (delete name .elastic)).simulate config w).1 = .ok () →
      (Program.ofJob (delete name .elastic)).AwaitsChanges config w) := by
  refine ⟨fun desired status completes => ?_, fun completes => ?_⟩
  · exact (Elastic.awaits_reconcile name desired).awaitsChanges config w completes
  · exact (Program.Awaits.ofJob (Elastic.awaits_delete name)).awaitsChanges config w completes

namespace Sample

/-- The backend is in two groups. One rule turns out to be there already, and the cloud takes its
time to apply it; the filter is late. -/
def reluctant : World where
  cloud := { inventory := inventory.addToGroup "h" ["i-1"] }
  script := [(.setFilter .elastic, { afterSecs := 9 }),
    (.authorize, { beforeSecs := 2, error := some ⟨.duplicateRule, "already there"⟩ }),
    (.awaitApplied, { afterSecs := 3 })]

/-- Both a creation and a deletion succeed and change groups on their way. -/
theorem rule_changes_awaited_samples :
    let creation := reconcile service.balancerName .elastic filtered
    let deletion := Program.ofJob (delete service.balancerName .elastic)
    ((creation.simulate {} reluctant).1 = .ok ⟨"203.0.113.1"⟩ ∧
      (creation.settlements {} reluctant).filterMap (·.call.revisedGroup) = ["g", "h"] ∧
      creation.AwaitsChanges {} reluctant) ∧
    (deletion.simulate {} provided).1 = .ok () ∧
      (deletion.settlements {} provided).filterMap (·.call.revisedGroup) = ["g"] ∧
      deletion.AwaitsChanges {} provided := by
  intro creation deletion
  have created : (creation.simulate {} reluctant).1 = .ok ⟨"203.0.113.1"⟩ := by decide +kernel
  have deleted : (deletion.simulate {} provided).1 = .ok () := by decide +kernel
  refine ⟨⟨created, by decide +kernel, ?creates⟩, deleted, by decide +kernel, ?deletes⟩
  case creates => exact (rule_changes_awaited service.balancerName {} reluctant).1 _ _ created
  case deletes => exact (rule_changes_awaited service.balancerName {} provided).2 deleted

end Sample

end CloudBalancer
