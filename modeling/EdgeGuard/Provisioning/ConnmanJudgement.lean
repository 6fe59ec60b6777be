import EdgeGuard.Provisioning.Connman
import EdgeGuard.Provisioning.StoreInvariant

/-!
# What ConnMan's answers are taken for

`egp_connman_apply` allows the rollback of a stored credential when ConnMan
refuses it or does not know its service, and `egp_connman_revoke` succeeds when
the service is gone.  Both read the same observation record, in which several
owned services look like none, and the loop that looks for the service ends in
the same way when ConnMan says that there is none, when it says that there are
several, when it does not answer, and when there was no time to ask.

## Main results

* `apply_judges_iff` — the rollback is justified exactly when the search asked,
  and every answer was one, without several services in it.
* `revoke_honest_iff` — the revocation is what it says exactly when it does not
  end on several services.
-/

namespace EdgeGuard.Provisioning.ConnmanJudgement

open EdgeGuard.Base EdgeGuard.Base.CText EdgeGuard.Base.Json EdgeGuard.Base.Polling
open EdgeGuard.Base.DurableDirectory
open EdgeGuard.Provisioning.Model EdgeGuard.Provisioning.Store
open EdgeGuard.Provisioning.Operations EdgeGuard.Provisioning.Connman
open EdgeGuard.Provisioning.StoreInvariant (labWifi)

/-! ## Answers -/

/-- The call was answered, and no matching owned service was in the answer. -/
def Absent (wifi : EgpWifiConfig) (answer : Except CallError (List Object)) : Prop :=
  ∃ services, answer = .ok services ∧ ownedServices wifi services = []

/-- The service is ready or online and has an address. -/
def isConnected (service : Object) : Bool :=
  (lookupString service.properties (ascii "State") == some (ascii "ready") ||
    lookupString service.properties (ascii "State") == some (ascii "online")) &&
    hasIpAddress service.properties

private theorem eq_of_take_eq {l t : Bytes} {n : Nat} (h : l.take n = t) (ht : t.length < n) :
    l = t := by
  have hlength : l.length ≤ n := by
    by_contra hlong
    have htake : (l.take n).length = n := List.length_take_of_le (by omega)
    rw [h] at htake
    omega
  rw [← h, List.take_of_length_le hlength]

/-- The state as the record holds it is cut, but not so that one could take it for
another. -/
private theorem state_eq_iff (state : Option Bytes) {t : Bytes} (ht : t.length < 31)
    (hne : t ≠ []) : ((state.map (·.take 31)).getD [] == t) = (state == some t) := by
  rw [Bool.eq_iff_iff, beq_iff_eq, beq_iff_eq]
  cases state with
  | none => simp [hne.symm]
  | some state =>
      simp only [Option.map_some, Option.getD_some, Option.some.injEq]
      constructor
      · intro h
        exact eq_of_take_eq h ht
      · rintro rfl
        exact List.take_of_length_le (by omega)

theorem connected_record (service : Object) :
    (ServiceObservation.clear.record service).connected = isConnected service := by
  have hready := state_eq_iff (lookupString service.properties (ascii "State"))
    (t := ascii "ready") (by decide) (by decide)
  have honline := state_eq_iff (lookupString service.properties (ascii "State"))
    (t := ascii "online") (by decide) (by decide)
  simp only [ServiceObservation.record, ServiceObservation.clear, isConnected, hready, honline]

/-- A service is found when it is the only one. -/
theorem found_iff (wifi : EgpWifiConfig) (services : List Object) :
    (observeService wifi services).found = true ↔ ∃ s, ownedServices wifi services = [s] := by
  rw [observeService_eq]
  split
  · rename_i hnone
    simp [hnone, ServiceObservation.clear]
  · rename_i s hone
    simp [hone, ServiceObservation.record]
  · rename_i hseveral
    simp [hseveral]

theorem observeService_one {wifi : EgpWifiConfig} {services : List Object} {s : Object}
    (h : ownedServices wifi services = [s]) :
    observeService wifi services = ServiceObservation.clear.record s := by
  rw [observeService_eq, h]

/-! ## The search -/

/-- The round asks for the services and gets no answer. -/
def Unanswered (deadline : Int) (round : Round) : Prop :=
  remainingMs deadline round.head ≠ 0 ∧ ∃ error, callSync deadline round.services = .error error

/-- The round is answered with several matching owned services. -/
def Several (deadline : Int) (wifi : EgpWifiConfig) (round : Round) : Prop :=
  remainingMs deadline round.head ≠ 0 ∧
    ∃ services, callSync deadline round.services = .ok services ∧
      2 ≤ (ownedServices wifi services).length

/-- The search makes no call: the time is over when it begins. -/
def Unasked (deadline : Int) (front : List Round) (last : Round) : Prop :=
  front = [] ∧ remainingMs deadline last.head = 0

/-- The search gives up on a ConnMan that was not asked, that did not answer, or that
answered with several services, and that is still there to be asked for its owner. -/
structure Misjudged (wifi : EgpWifiConfig) (env : ApplyEnv) : Prop where
  timeout : env.timeoutMs ≠ 0
  valid : wifiValid wifi = true
  profile : env.writeProfile = .ok ()
  scan : scanning env = true
  owner : ∃ owner, connmanGetOwner env.owner = some owner ∧
    connmanOwnerIs env.findingOwner owner = true
  course : ∃ front r back, env.finding = front ++ r :: back ∧
    (∀ q ∈ front, (findingLoop env.deadline wifi).Idle q) ∧
    (findingLoop env.deadline wifi).Ends r none ∧
    (Unasked env.deadline front r ∨
      ∃ q ∈ front ++ [r], Unanswered env.deadline q ∨ Several env.deadline wifi q)

/-- What is promised of an apply: ConnMan's own answers justify a rollback, and show the
connection. -/
structure Judges (wifi : EgpWifiConfig) (reply : ConnmanReply) : Prop where
  rollback : ∀ result, reply.result = some result → result.disposition = .rollbackAllowed →
    (∃ error, reply.connect = some (.error error) ∧
      (error.is (ascii ".InvalidKey") = true ∨ error.is (ascii ".NotFound") = true)) ∨
    (reply.services ≠ [] ∧ ∀ answer ∈ reply.services, Absent wifi answer)
  connected : reply.returned = true → ∃ services s, .ok services ∈ reply.services ∧
    ownedServices wifi services = [s] ∧ isConnected s = true

/-- The ends of an apply. -/
inductive ApplyEnd (wifi : EgpWifiConfig) (env : ApplyEnv) (reply : ConnmanReply) : Prop
  | kept (returned : reply.returned = false)
      (result : ∀ result, reply.result = some result → result.disposition = .retainCanonical)
  | notFound (timeout : env.timeoutMs ≠ 0) (valid : wifiValid wifi = true)
      (profile : env.writeProfile = .ok ()) (scan : scanning env = true)
      (owner : ∃ owner, connmanGetOwner env.owner = some owner ∧
        connmanOwnerIs env.findingOwner owner = true)
      (search : (findingLoop env.deadline wifi).run env.finding = some ⟨none, reply.services⟩)
      (connect : reply.connect = none) (returned : reply.returned = false)
  | refused (error : CallError) (connect : reply.connect = some (.error error))
      (is : error.is (ascii ".InvalidKey") = true ∨ error.is (ascii ".NotFound") = true)
      (returned : reply.returned = false)
  | connected (result : ∀ result, reply.result = some result → result.disposition = .connected)
      (answers : List (Except CallError (List Object))) (observed : ServiceObservation)
      (wait : (waitingLoop env.deadline wifi).run env.waiting = some ⟨some observed, answers⟩)
      (asked : ∀ answer ∈ answers, answer ∈ reply.services)

/-- A failure that keeps the credential. -/
theorem end_of_fail {wifi : EgpWifiConfig} {env : ApplyEnv} {result : EgpConnmanResult}
    (h : result.disposition = .retainCanonical) (error : EgpError)
    (services : List (Except CallError (List Object))) (connect : Option (Except CallError Unit)) :
    ApplyEnd wifi env (.fail result error services connect) := by
  refine .kept rfl ?_
  rintro _ ⟨⟩
  exact h

/-- The ways the wait for the connection ends. -/
theorem applyWaiting_end {wifi : EgpWifiConfig} {env : ApplyEnv} {owner : Bytes}
    {result : EgpConnmanResult} {services : List (Except CallError (List Object))}
    {connect : Option (Except CallError Unit)} {reply : ConnmanReply}
    (h : applyWaiting wifi env owner result services connect = some reply) :
    ApplyEnd wifi env reply := by
  unfold applyWaiting at h
  cases hrun : (waitingLoop env.deadline wifi).run env.waiting with
  | none =>
      rw [hrun] at h
      cases h
  | some polled =>
      obtain ⟨value, asked⟩ := polled
      rw [hrun] at h
      cases value with
      | some observed =>
          cases h
          refine .connected ?_ asked observed hrun ?_
          · rintro _ ⟨⟩
            rfl
          · intro answer hanswer
            exact List.mem_append_right _ hanswer
      | none =>
          simp only [Option.bind_eq_bind, Option.bind_some] at h
          split at h
          · cases h
            exact end_of_fail rfl _ _ _
          · cases h
            exact end_of_fail rfl _ _ _

/-- The ways an application ends once the service is found. -/
theorem applyFound_end {wifi : EgpWifiConfig} {env : ApplyEnv} {owner : Bytes}
    {observed : ServiceObservation} {services : List (Except CallError (List Object))}
    {reply : ConnmanReply} (h : applyFound wifi env owner observed services = some reply) :
    ApplyEnd wifi env reply := by
  unfold applyFound at h
  simp only at h
  split at h
  · exact applyWaiting_end h
  · split at h
    · exact applyWaiting_end h
    · rename_i error hconnect
      split at h
      · exact applyWaiting_end h
      · split at h
        · rename_i hkey
          cases h
          exact .refused error (congrArg some hconnect) (.inl hkey) rfl
        · split at h
          · rename_i hnot
            cases h
            exact .refused error (congrArg some hconnect) (.inr hnot) rfl
          · split at h
            · cases h
              exact end_of_fail rfl _ _ _
            · cases h
              exact end_of_fail rfl _ _ _

/-- The ways a whole application ends. -/
theorem apply_end {wifi : EgpWifiConfig} {env : ApplyEnv} {reply : ConnmanReply}
    (h : egpConnmanApply wifi env = some reply) : ApplyEnd wifi env reply := by
  unfold egpConnmanApply egpWifiValidate at h
  split at h
  · cases h
    exact .kept rfl (by simp)
  · rename_i htimeout
    by_cases hvalid : wifiValid wifi = true
    · rw [if_pos hvalid] at h
      simp only at h
      split at h
      · cases h
        exact end_of_fail rfl _ _ _
      · rename_i hprofile
        split at h
        · cases h
          exact end_of_fail rfl _ _ _
        · rename_i owner howner
          split at h
          · cases h
            exact end_of_fail rfl _ _ _
          · rename_i hscan
            simp only [Bool.not_eq_true', Bool.not_eq_false] at hscan
            unfold applyFinding at h
            cases hrun : (findingLoop env.deadline wifi).run env.finding with
            | none =>
                rw [hrun] at h
                cases h
            | some polled =>
                obtain ⟨value, asked⟩ := polled
                rw [hrun] at h
                simp only [Option.bind_eq_bind, Option.bind_some] at h
                cases value with
                | some observed => exact applyFound_end h
                | none =>
                    simp only at h
                    split at h
                    · cases h
                      exact end_of_fail rfl _ _ _
                    · rename_i hsame
                      simp only [Bool.not_eq_true', Bool.not_eq_false] at hsame
                      cases h
                      exact .notFound htimeout hvalid hprofile hscan ⟨owner, howner, hsame⟩ hrun
                        rfl rfl
    · rw [if_neg hvalid] at h
      cases h
      exact .kept rfl (by simp)

private theorem due_eq_true {β : Type} {deadline : Int} {wifi : EgpWifiConfig}
    {accept : ServiceObservation → Option β} {round : Round} :
    (serviceLoop deadline wifi accept).due round = true ↔ remainingMs deadline round.head = 0 := by
  simp [serviceLoop]

private theorem due_eq_false {β : Type} {deadline : Int} {wifi : EgpWifiConfig}
    {accept : ServiceObservation → Option β} {round : Round} :
    (serviceLoop deadline wifi accept).due round = false ↔ remainingMs deadline round.head ≠ 0 := by
  simp [serviceLoop]

/-- One service is what the search accepts. -/
private theorem finding_accept_one {deadline : Int} {wifi : EgpWifiConfig} {services : List Object}
    {s : Object} (h : ownedServices wifi services = [s]) :
    (findingLoop deadline wifi).accept services ≠ none := by
  have hfound := (found_iff wifi services).mpr ⟨s, h⟩
  simp [findingLoop, serviceLoop, hfound]

/-- Outside the misjudged searches each end is judged by what ConnMan answered. -/
theorem judges_of_end {wifi : EgpWifiConfig} {env : ApplyEnv} (hnot : ¬ Misjudged wifi env)
    {reply : ConnmanReply} (h : ApplyEnd wifi env reply) : Judges wifi reply := by
  cases h with
  | kept returned result =>
      refine ⟨fun r hr hrollback => ?_, fun htrue => ?_⟩
      · rw [result r hr] at hrollback
        cases hrollback
      · rw [returned] at htrue
        cases htrue
  | refused error connect is returned =>
      refine ⟨fun _ _ _ => .inl ⟨error, connect, is⟩, fun htrue => ?_⟩
      rw [returned] at htrue
      cases htrue
  | notFound timeout valid profile scan owner search connect returned =>
      refine ⟨fun _ _ _ => .inr ?_, fun htrue => ?_⟩
      · obtain ⟨front, r, back, hrounds, hfront, hends, hasked⟩ := Loop.run_eq_some_iff.mp search
        rw [show reply.services = _ from hasked]
        refine ⟨fun hnothing => ?_, fun answer hanswer => ?_⟩
        · obtain ⟨hfirst, hdue⟩ := Loop.asked_eq_nil_iff.mp hnothing
          exact hnot ⟨timeout, valid, profile, scan, owner,
            front, r, back, hrounds, hfront, hends, .inl ⟨hfirst, due_eq_true.mp hdue⟩⟩
        rw [Loop.mem_asked_iff hfront] at hanswer
        obtain ⟨q, hq, hdue, hask⟩ := hanswer
        have hcourse : ¬ (Unanswered env.deadline q ∨ Several env.deadline wifi q) := fun hbad =>
          hnot ⟨timeout, valid, profile, scan, owner,
            front, r, back, hrounds, hfront, hends, .inr ⟨q, hq, hbad⟩⟩
        cases answer with
        | error error => exact absurd (.inl ⟨due_eq_false.mp hdue, error, hask⟩) hcourse
        | ok services =>
            refine ⟨services, rfl, ?_⟩
            cases hlist : ownedServices wifi services with
            | nil => rfl
            | cons s rest =>
                cases rest with
                | nil =>
                    exact absurd (Loop.rejected hfront hends hq hdue hask)
                      (finding_accept_one hlist)
                | cons t rest =>
                    refine absurd (.inr ⟨due_eq_false.mp hdue, services, hask, ?_⟩) hcourse
                    rw [hlist]
                    simp
      · rw [returned] at htrue
        cases htrue
  | connected result answers observed wait asked =>
      refine ⟨fun r hr hrollback => ?_, fun _ => ?_⟩
      · rw [result r hr] at hrollback
        cases hrollback
      · obtain ⟨front, r, back, -, hfront, hends, hasked⟩ := Loop.run_eq_some_iff.mp wait
        cases hends with
        | accepted hdue services hask value haccept =>
            have hmem : .ok services ∈ reply.services := by
              apply asked
              rw [show answers = _ from hasked, Loop.mem_asked_iff hfront]
              exact ⟨r, by simp, hdue, hask⟩
            have hseen : (observeService wifi services).found = true ∧
                (observeService wifi services).connected = true := by
              simp only [waitingLoop, serviceLoop] at haccept
              split at haccept
              · rename_i hboth
                simpa using hboth
              · cases haccept
            obtain ⟨s, hone⟩ := (found_iff wifi services).mp hseen.1
            refine ⟨services, s, hmem, hone, ?_⟩
            rw [← connected_record, ← observeService_one hone]
            exact hseen.2

/-- A search that is misjudged ends in a rollback. -/
theorem not_judges_of_misjudged {wifi : EgpWifiConfig} {env : ApplyEnv}
    (h : Misjudged wifi env) :
    ∃ reply, egpConnmanApply wifi env = some reply ∧ ¬ Judges wifi reply := by
  obtain ⟨htimeout, hvalid, hprofile, hscan, ⟨owner, howner, hsame⟩,
    front, r, back, hrounds, hfront, hends, hbad⟩ := h
  let asked := front.map (findingLoop env.deadline wifi).ask ++
    (findingLoop env.deadline wifi).asks r
  have hsearch : (findingLoop env.deadline wifi).run env.finding = some ⟨none, asked⟩ :=
    Loop.run_eq_some_iff.mpr ⟨front, r, back, hrounds, hfront, hends, rfl⟩
  have hreply : egpConnmanApply wifi env = some (serviceNotFound asked) := by
    simp [egpConnmanApply, htimeout, egpWifiValidate, hvalid, hprofile, howner, hscan,
      applyFinding, hsearch, hsame]
  refine ⟨_, hreply, fun hjudges => ?_⟩
  rcases hjudges.rollback _ rfl rfl with ⟨error, hconnect, -⟩ | ⟨hsomething, habsent⟩
  · cases hconnect
  rcases hbad with ⟨hfirst, hlate⟩ | ⟨q, hq, hbad⟩
  · exact hsomething (Loop.asked_eq_nil_iff.mpr ⟨hfirst, due_eq_true.mpr hlate⟩)
  · -- the round that went wrong is among those that were asked
    have hdue : remainingMs env.deadline q.head ≠ 0 := by
      rcases hbad with hbad | hbad
      · exact hbad.1
      · exact hbad.1
    obtain ⟨services, hask, hnone⟩ := habsent ((findingLoop env.deadline wifi).ask q)
      ((Loop.mem_asked_iff hfront).mpr ⟨q, hq, due_eq_false.mpr hdue, rfl⟩)
    rcases hbad with ⟨-, error, herror⟩ | ⟨-, services', hservices, hseveral⟩
    · exact absurd (herror.symm.trans hask) (by simp)
    · cases hservices.symm.trans hask
      rw [hnone] at hseveral
      simp at hseveral

/-- ConnMan's answers justify what an apply does exactly when it is not misjudged. -/
theorem apply_judges_iff (wifi : EgpWifiConfig) (env : ApplyEnv) :
    (∀ reply, egpConnmanApply wifi env = some reply → Judges wifi reply) ↔
      ¬ Misjudged wifi env := by
  constructor
  · intro hall hmisjudged
    obtain ⟨reply, hreply, hnot⟩ := not_judges_of_misjudged hmisjudged
    exact hnot (hall reply hreply)
  · intro hnot reply hreply
    exact judges_of_end hnot (apply_end hreply)

/-! ## Three searches -/

def wifiTechnology : Object :=
  ⟨ascii "/net/connman/technology/wifi",
    [(ascii "Type", .string (ascii "wifi")), (ascii "Powered", .boolean true)]⟩

/-- A service that ConnMan made from the profile of the network. -/
def labService (path : Bytes) : Object :=
  ⟨path, [(ascii "Name", .string (ascii "lab")), (ascii "Security", .strings [ascii "psk"]),
    (ascii "State", .string (ascii "idle")), (ascii "Immutable", .boolean true),
    (ascii "Favorite", .boolean true), (ascii "AutoConnect", .boolean true)]⟩

/-- The network seen by two interfaces. -/
def labServices : List Object :=
  [labService (ascii "/net/connman/service/wifi_a"),
    labService (ascii "/net/connman/service/wifi_b")]

/-- An apply of 30 seconds that gets as far as its search. -/
def searchEnv (finding : List Round) : ApplyEnv :=
  { timeoutMs := 30000
    writeProfile := .ok ()
    start := 0
    owner := some (ascii ":1.7")
    technologies := ⟨1000, .ok [wifiTechnology]⟩
    scan := ⟨2000, .ok ()⟩
    finding
    findingOwner := some (ascii ":1.7")
    connect := ⟨3000, .ok ()⟩
    connectOwner := none
    waiting := []
    waitingOwner := none }

/-- ConnMan hangs until the call times out. -/
def silentRound : Round := ⟨3000, ⟨3000, .error .noReply⟩, false, 30000000, false⟩

/-- ConnMan answers with the two services, and then the time is over. -/
def twinRound : Round := ⟨3000, ⟨3000, .ok labServices⟩, false, 30000000, false⟩

/-- The answer to the scan came at the deadline. -/
def lateRound : Round := ⟨30000000, ⟨30000000, .ok []⟩, false, 30000000, false⟩

/-- A search that ends in one of the three ways is misjudged. -/
private theorem misjudged_searchEnv {r : Round}
    (hends : (findingLoop (searchEnv [r]).deadline labWifi).Ends r none)
    (hbad : Unasked (searchEnv [r]).deadline [] r ∨
      Unanswered (searchEnv [r]).deadline r ∨ Several (searchEnv [r]).deadline labWifi r) :
    Misjudged labWifi (searchEnv [r]) :=
  { timeout := by simp [searchEnv]
    valid := by decide +kernel
    profile := rfl
    scan := by
      simp only [scanning, searchEnv, ApplyEnv.deadline]
      decide +kernel
    owner := by
      refine ⟨ascii ":1.7", ?_, ?_⟩
      · simp only [searchEnv]
        decide +kernel
      · simp only [searchEnv]
        decide +kernel
    course := by
      refine ⟨[], r, [], rfl, by simp, hends, ?_⟩
      rcases hbad with hlate | hbad
      · exact .inl hlate
      · exact .inr ⟨r, by simp, hbad⟩ }

/-- The credential is given up for a ConnMan that does not answer, for one that
answers with two services, and for one that is not even asked. -/
theorem apply_gives_up_on_silence :
    (∃ reply, egpConnmanApply labWifi (searchEnv [silentRound]) = some reply ∧
      ¬ Judges labWifi reply) ∧
    (∃ reply, egpConnmanApply labWifi (searchEnv [twinRound]) = some reply ∧
      ¬ Judges labWifi reply) ∧
    ∃ reply, egpConnmanApply labWifi (searchEnv [lateRound]) = some reply ∧
      ¬ Judges labWifi reply := by
  refine ⟨?_, ?_, ?_⟩
  · apply not_judges_of_misjudged
    apply misjudged_searchEnv
    · exact .failed (by decide +kernel) .noReply rfl
    · exact .inr (.inl ⟨by decide +kernel, .noReply, rfl⟩)
  · apply not_judges_of_misjudged
    apply misjudged_searchEnv
    · exact .stopped (by decide +kernel) labServices rfl (by decide +kernel) (by decide +kernel)
    · exact .inr (.inr ⟨by decide +kernel, labServices, rfl, by decide +kernel⟩)
  · apply not_judges_of_misjudged
    apply misjudged_searchEnv
    · exact .due (by decide +kernel)
    · exact .inl ⟨rfl, by decide +kernel⟩

/-! ## The revocation -/

/-- The owned profile was there, and one matching owned service was observed before it
is removed. -/
structure Attested (wifi : EgpWifiConfig) (env : RevokeEnv) : Prop where
  profile : env.profilePresent = true
  observed : ∃ owner services s, connmanGetOwner env.owner = some owner ∧
    callSync env.deadline env.before = .ok services ∧ ownedServices wifi services = [s]

/-- The revocation of an attested service ends on an answer with several of them. -/
structure Misread (wifi : EgpWifiConfig) (env : RevokeEnv) : Prop where
  timeout : env.timeoutMs ≠ 0
  valid : wifiValid wifi = true
  attested : Attested wifi env
  removed : env.removeProfile = .ok ()
  course : ∃ front r back, env.polling = front ++ r :: back ∧
    (∀ q ∈ front, (revokingLoop env.deadline wifi).Idle q) ∧ Several env.deadline wifi r

/-- One of the answers shows the service gone. -/
def Gone (wifi : EgpWifiConfig) (answers : List (Except CallError (List Object))) : Prop :=
  ∃ services, .ok services ∈ answers ∧ ownedServices wifi services = []

/-- What is promised of a revocation: an attested service has gone when it succeeds, and
so has it when a FORGET_WIFI that relies on it removes its tombstone. -/
structure Honest (wifi : EgpWifiConfig) (env : RevokeEnv) : Prop where
  revoked : ∀ reply, egpConnmanRevoke wifi env = some reply → Attested wifi env →
    reply.returned = true → Gone wifi reply.services
  forgotten : ∀ reply, egpConnmanRevoke wifi env = some reply → Attested wifi env →
    ∀ (J : JsonParser) (d : Directory) (json : Bytes) (forget : ForgetWifiEnv),
      (egpStoreForgetBegin J forget.begin d).value = some (some wifi) →
      (forget.revoke = .ok () → reply.returned = true) →
      .unlink .forget ∈ (Operations.forgetWifi J forget d json).acts → Gone wifi reply.services

/-- A revocation waits for nothing as long as there is exactly one service. -/
theorem revoking_accept (deadline : Int) (wifi : EgpWifiConfig) (services : List Object) :
    (revokingLoop deadline wifi).accept services = none ↔
      ∃ s, ownedServices wifi services = [s] := by
  rw [← found_iff]
  simp only [revokingLoop, serviceLoop]
  constructor
  · intro h
    split at h
    · cases h
    · rename_i hboth
      simp only [Bool.or_eq_true, Bool.not_eq_true', not_or, Bool.not_eq_false] at hboth
      exact hboth.1
  · intro hfound
    obtain ⟨s, hone⟩ := (found_iff wifi services).mp hfound
    simp [observeService_one hone, ServiceObservation.record]

private theorem attest_of_attested {wifi : EgpWifiConfig} {env : RevokeEnv}
    (h : Attested wifi env) : ∃ owner observed,
      revokeAttest wifi env = some (some (owner, observed)) := by
  obtain ⟨owner, services, s, howner, hbefore, hone⟩ := h.observed
  refine ⟨owner, observeService wifi services, ?_⟩
  simp [revokeAttest, h.profile, howner, hbefore, observeService_one hone,
    ServiceObservation.record, ServiceObservation.clear]

/-- A revocation of an attested service that succeeds has come to the end of its loop. -/
theorem revoke_of_returned {wifi : EgpWifiConfig} {env : RevokeEnv} {reply : ConnmanReply}
    (h : egpConnmanRevoke wifi env = some reply) (hattested : Attested wifi env)
    (hreturned : reply.returned = true) :
    env.timeoutMs ≠ 0 ∧ wifiValid wifi = true ∧ env.removeProfile = .ok () ∧
      (revokingLoop env.deadline wifi).run env.polling = some ⟨some (), reply.services⟩ := by
  obtain ⟨owner, observed, hattest⟩ := attest_of_attested hattested
  unfold egpConnmanRevoke egpWifiValidate at h
  rw [hattest] at h
  split at h
  · cases h
    cases hreturned
  · rename_i htimeout
    by_cases hvalid : wifiValid wifi = true
    · rw [if_pos hvalid] at h
      simp only at h
      split at h
      · cases h
        cases hreturned
      · rename_i hremoved
        unfold revokeObserved at h
        cases hrun : (revokingLoop env.deadline wifi).run env.polling with
        | none =>
            rw [hrun] at h
            cases h
        | some polled =>
            obtain ⟨value, asked⟩ := polled
            rw [hrun] at h
            simp only [Option.bind_eq_bind, Option.bind_some] at h
            cases value with
            | some value =>
                cases h
                exact ⟨htimeout, hvalid, hremoved, rfl⟩
            | none =>
                simp only at h
                split at h
                · cases h
                  cases hreturned
                · cases h
                  cases hreturned
    · rw [if_neg hvalid] at h
      cases h
      cases hreturned

/-- A revocation that returns TRUE saw the profile gone, unless it misread an answer. -/
theorem gone_of_returned {wifi : EgpWifiConfig} {env : RevokeEnv} (hnot : ¬ Misread wifi env)
    {reply : ConnmanReply} (h : egpConnmanRevoke wifi env = some reply)
    (hattested : Attested wifi env) (hreturned : reply.returned = true) :
    Gone wifi reply.services := by
  obtain ⟨htimeout, hvalid, hremoved, hrun⟩ := revoke_of_returned h hattested hreturned
  obtain ⟨front, r, back, hrounds, hfront, hends, hasked⟩ := Loop.run_eq_some_iff.mp hrun
  cases hends with
  | accepted hdue services hask value haccept =>
      refine ⟨services, ?_, ?_⟩
      · rw [show reply.services = _ from hasked, Loop.mem_asked_iff hfront]
        exact ⟨r, by simp, hdue, hask⟩
      · by_contra hsome
        have hone : ¬ ∃ s, ownedServices wifi services = [s] := by
          rw [← revoking_accept env.deadline, haccept]
          simp
        apply hnot
        refine ⟨htimeout, hvalid, hattested, hremoved, front, r, back, hrounds, hfront,
          due_eq_false.mp hdue, services, hask, ?_⟩
        cases hlist : ownedServices wifi services with
        | nil => exact absurd hlist hsome
        | cons s rest =>
            cases rest with
            | nil => exact absurd ⟨s, hlist⟩ hone
            | cons t rest => simp

/-- A forget that removes its tombstone was told that the credential is revoked. -/
theorem revoked_of_unlink {J : JsonParser} {d : Directory} {json : Bytes} {env : ForgetWifiEnv}
    (h : .unlink .forget ∈ (Operations.forgetWifi J env d json).acts) : env.revoke = .ok () := by
  have hbegin : DirAct.unlink FileName.forget ∉ (egpStoreForgetBegin J env.begin d).acts := by
    unfold egpStoreForgetBegin
    split
    · simp [Store.Reply.fail]
    · split
      · simp [Store.Reply.fail]
      · simp
    · unfold forgetLive
      split
      · simp [Store.Reply.fail]
      · simp
      · simp only
        split
        · simp [Store.Reply.fail]
        · simp [Store.Reply.fail]
        · simp
  unfold Operations.forgetWifi at h
  split at h
  · cases h
  · split at h
    · cases h
    · simp only at h
      split at h
      · exact absurd h hbegin
      · unfold forgetBegun at h
        split at h
        · exact absurd h hbegin
        · assumption

theorem honest_of_not_misread {wifi : EgpWifiConfig} {env : RevokeEnv}
    (hnot : ¬ Misread wifi env) : Honest wifi env := by
  refine ⟨?_, ?_⟩
  · intro reply hreply hattested hreturned
    exact gone_of_returned hnot hreply hattested hreturned
  · intro reply hreply hattested J d json forget _ hrevoke hunlink
    exact gone_of_returned hnot hreply hattested (hrevoke (revoked_of_unlink hunlink))

/-- A revocation that is misread succeeds on services that are all still there. -/
theorem revoke_of_misread {wifi : EgpWifiConfig} {env : RevokeEnv} (h : Misread wifi env) :
    ∃ reply, egpConnmanRevoke wifi env = some reply ∧ reply.returned = true ∧
      ¬ Gone wifi reply.services := by
  obtain ⟨htimeout, hvalid, hattested, hremoved, front, r, back, hrounds, hfront,
    hdue, services, hask, hseveral⟩ := h
  obtain ⟨owner, observed, hattest⟩ := attest_of_attested hattested
  have hend : (revokingLoop env.deadline wifi).Ends r (some ()) := by
    cases haccept : (revokingLoop env.deadline wifi).accept services with
    | some value => exact .accepted (due_eq_false.mpr hdue) services hask value haccept
    | none =>
        obtain ⟨s, hone⟩ := (revoking_accept _ _ _).mp haccept
        rw [hone] at hseveral
        simp at hseveral
  let asked := front.map (revokingLoop env.deadline wifi).ask ++
    (revokingLoop env.deadline wifi).asks r
  have hrun : (revokingLoop env.deadline wifi).run env.polling = some ⟨some (), asked⟩ :=
    Loop.run_eq_some_iff.mpr ⟨front, r, back, hrounds, hfront, hend, rfl⟩
  have hreply : egpConnmanRevoke wifi env =
      some (revoked observed.path (ascii "Provisioned Wi-Fi service revoked") asked) := by
    simp [egpConnmanRevoke, htimeout, egpWifiValidate, hvalid, hattest, hremoved, revokeObserved,
      hrun]
  refine ⟨_, hreply, rfl, ?_⟩
  rintro ⟨other, hmem, hnone⟩
  obtain ⟨q, hq, -, hother⟩ := (Loop.mem_asked_iff hfront).mp hmem
  rcases List.mem_append.mp hq with hq | hq
  · -- the rounds in front were answered with exactly one service
    obtain ⟨-, ⟨answer, hanswer, haccept⟩, -⟩ := hfront q hq
    cases hanswer.symm.trans hother
    obtain ⟨s, hone⟩ := (revoking_accept _ _ _).mp haccept
    rw [hnone] at hone
    cases hone
  · cases List.mem_singleton.mp hq
    cases hask.symm.trans hother
    rw [hnone] at hseveral
    simp at hseveral

/-- A revocation is what it says exactly when it is not misread. -/
theorem revoke_honest_iff (wifi : EgpWifiConfig) (env : RevokeEnv) :
    Honest wifi env ↔ ¬ Misread wifi env := by
  constructor
  · intro hhonest hmisread
    obtain ⟨reply, hreply, hreturned, hnot⟩ := revoke_of_misread hmisread
    exact hnot (hhonest.revoked reply hreply hmisread.attested hreturned)
  · exact honest_of_not_misread

/-- A revocation of 30 seconds that sees one service, and then two. -/
def twinEnv : RevokeEnv :=
  { timeoutMs := 30000
    start := 0
    profilePresent := true
    owner := some (ascii ":1.7")
    before := ⟨1000, .ok [labService (ascii "/net/connman/service/wifi_a")]⟩
    removeProfile := .ok ()
    polling := [twinRound]
    pollingOwner := some (ascii ":1.7") }

/-- The revocation succeeds while ConnMan reports two services of the network. -/
theorem revoke_mistakes_two_for_none :
    ∃ reply, egpConnmanRevoke labWifi twinEnv = some reply ∧ Attested labWifi twinEnv ∧
      reply.returned = true ∧ ¬ Gone labWifi reply.services := by
  have hattested : Attested labWifi twinEnv :=
    ⟨rfl, ascii ":1.7", [labService (ascii "/net/connman/service/wifi_a")],
      labService (ascii "/net/connman/service/wifi_a"), by decide +kernel, rfl, rfl⟩
  have hmisread : Misread labWifi twinEnv :=
    { timeout := by decide
      valid := by decide +kernel
      attested := hattested
      removed := rfl
      course := ⟨[], twinRound, [], rfl, by simp, by decide +kernel, labServices, rfl,
        by decide +kernel⟩ }
  obtain ⟨reply, hreply, hreturned, hnot⟩ := revoke_of_misread hmisread
  exact ⟨reply, hreply, hattested, hreturned, hnot⟩

end EdgeGuard.Provisioning.ConnmanJudgement
