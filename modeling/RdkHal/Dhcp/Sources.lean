import RdkHal.Dhcp.Getters
import RdkHal.Dhcp.Remain

/-! The sources behind a remaining time, and what a getter makes of their failures. -/

set_option autoImplicit false

namespace RdkHal.Dhcp
open Text

variable {ω : Type}

def Delivers (P : Platform ω) (format queryValue : Str) (w : ω) (text : Str) (w' : ω) : Prop :=
  ∃ fd w₁ ifname w₂, P.connect w = (fd,w₁) ∧ 0 ≤ fd ∧
    P.get currentWanIfname [] 32 w₁ = ((0,ifname),w₂) ∧ ifname ≠ [] ∧
    P.get (P.lib.sprintfS 64 (expandS format ifname)).2 queryValue 64 w₂ = ((0,text),w') ∧ text ≠ []

/-- The uptime file can be opened, and its first line has a token. -/
def UptimeDelivers (P : Platform ω) (w : ω) (upTime : UInt32) (w' : ω) : Prop :=
  ∃ text token, P.uptimeFile w = (some text,w') ∧ text ≠ [] ∧
    strtok " .".toList (takeLine 63 text).1 = some token ∧ upTime = (atoi token).toUInt32

def AllDeliver (P : Platform ω) (w : ω) (lease start : Str) (upTime : UInt32) (w' : ω) : Prop :=
  ∃ w₁ w₂, Delivers P leaseTimeFormat [] w lease w₁ ∧ Delivers P startTimeFormat lease w₁ start w₂ ∧
    UptimeDelivers P w₂ upTime w'

/-- A source that fails makes the getter fail and keeps the old content; a success is computed
from all of them. -/
def FailuresReported (P : Platform ω) (timer : Timer) (old : UInt32) (w : ω) : Prop :=
  ((¬∃ lease start upTime w', AllDeliver P w lease start upTime w') →
    ∃ w', timer.getter P (some old) w = some (.err,some old,w')) ∧
  ∀ value w', timer.getter P (some old) w = some (.ok,value,w') →
    ∃ lease start upTime, AllDeliver P w lease start upTime w' ∧
      value = some (timer.remain lease start upTime)

theorem query_delivers (P : Platform ω) (format queryValue : Str) (w : ω) (text : Str) (w' : ω) :
    query P format queryValue w = (.ok,text,w') ↔ Delivers P format queryValue w text w' := by
  constructor
  · intro h
    rcases hc : P.connect w with ⟨fd,w₁⟩
    rcases hi : P.get currentWanIfname [] 32 w₁ with ⟨⟨ret,ifname⟩,w₂⟩
    rcases hv : P.get (P.lib.sprintfS 64 (expandS format ifname)).2 queryValue 64 w₂ with
      ⟨⟨ret',value⟩,w₃⟩
    by_cases hfd : fd < 0
    · simp [query,dhcpv4cSyseventGetValue,hc,hfd] at h
    by_cases hname : ret ≠ 0 ∨ ifname = []
    · simp [query,dhcpv4cSyseventGetValue,hc,hfd,hi,hname] at h
    by_cases hvalue : ret' ≠ 0 ∨ value = []
    · simp [query,dhcpv4cSyseventGetValue,hc,hfd,hi,hname,hv,hvalue] at h
    obtain ⟨rfl,hifname⟩ := not_or.mp hname |>.imp_left not_not.mp
    obtain ⟨rfl,hne⟩ := not_or.mp hvalue |>.imp_left not_not.mp
    obtain ⟨c,rest,rfl⟩ := List.exists_cons_of_ne_nil hne
    simp only [query,dhcpv4cSyseventGetValue,hc,hfd,hi,hname,hv,hvalue,if_false] at h
    cases h
    exact ⟨fd,w₁,ifname,w₂,hc,by omega,hi,hifname,hv,hne⟩
  · rintro ⟨fd,w₁,ifname,w₂,hc,hfd,hi,hifname,hv,hne⟩
    have hfd' : ¬fd < 0 := by omega
    obtain ⟨c,rest,rfl⟩ := List.exists_cons_of_ne_nil hne
    simp [query,dhcpv4cSyseventGetValue,hc,hfd',hi,hifname,hv]

theorem upTime_delivers (P : Platform ω) (w : ω) (upTime : UInt32) (w' : ω) :
    dhcpv4cGetUpTime P 0 w = some (.ok,upTime,w') ↔ UptimeDelivers P w upTime w' := by
  constructor
  · intro h
    rcases hf : P.uptimeFile w with ⟨_ | text,w₁⟩
    · simp [dhcpv4cGetUpTime,hf] at h
    by_cases hempty : text = []
    · simp [dhcpv4cGetUpTime,hf,hempty] at h
    cases ht : strtok " .".toList (takeLine 63 text).1 with
    | none => simp only [dhcpv4cGetUpTime,hf,hempty,if_false,ht,reduceCtorEq] at h
    | some token =>
      simp only [dhcpv4cGetUpTime,hf,hempty,if_false,ht,UInt32.zero_add] at h
      cases h
      exact ⟨text,token,hf,hempty,ht,rfl⟩
  · rintro ⟨text,token,hf,hempty,ht,rfl⟩
    simp only [dhcpv4cGetUpTime,hf,hempty,if_false,ht,UInt32.zero_add]

theorem remainTime_eq (P : Platform ω) (threshold : UInt32 → UInt32) (old : UInt32) (w : ω) :
    remainTime P threshold (some old) w =
      match query P leaseTimeFormat [] w with
      | (.err,_,w₁) => some (.err,some old,w₁)
      | (.ok,lease,w₁) =>
        match query P startTimeFormat lease w₁ with
        | (.err,_,w₂) => some (.err,some old,w₂)
        | (.ok,start,w₂) => (dhcpv4cGetUpTime P 0 w₂).map fun q =>
          (.ok,some (threshold (atoi lease).toUInt32-(q.2.1-(atoi start).toUInt32)),q.2.2) := by
  rcases hl : dhcpv4cSyseventGetValue P (some leaseTimeFormat) (some []) 64 w with
    ⟨_ | _,_ | _ | ⟨c,lease⟩,w₁⟩ <;> simp only [remainTime,query,hl]
  rcases hs : dhcpv4cSyseventGetValue P (some startTimeFormat) (some (c :: lease)) 64 w₁ with
    ⟨_ | _,_ | _ | ⟨d,start⟩,w₂⟩ <;> simp only
  rcases dhcpv4cGetUpTime P 0 w₂ with _ | ⟨_,upTime,w₃⟩ <;> rfl

theorem allDeliver_read {P : Platform ω} {w w₁ w₂ : ω} {lease start : Str}
    (hl : query P leaseTimeFormat [] w = (.ok,lease,w₁))
    (hs : query P startTimeFormat lease w₁ = (.ok,start,w₂)) (lease' start' : Str)
    (upTime : UInt32) (w' : ω) : AllDeliver P w lease' start' upTime w' ↔
      lease' = lease ∧ start' = start ∧ dhcpv4cGetUpTime P 0 w₂ = some (.ok,upTime,w') := by
  simp only [AllDeliver,← query_delivers,← upTime_delivers]
  constructor
  · rintro ⟨_,_,hlease,hstart,hup⟩
    rw [hl] at hlease
    cases hlease
    rw [hs] at hstart
    cases hstart
    exact ⟨rfl,rfl,hup⟩
  · rintro ⟨rfl,rfl,hup⟩
    exact ⟨w₁,w₂,hl,hs,hup⟩

theorem failuresReported_failed {P : Platform ω} {timer : Timer} {old : UInt32} {w w' : ω}
    (hget : timer.getter P (some old) w = some (.err,some old,w')) : FailuresReported P timer old w := by
  refine ⟨fun _ => ⟨w',hget⟩,fun value w'' hok => ?_⟩
  rw [hget] at hok
  cases hok

theorem failuresReported_iff (P : Platform ω) (timer : Timer) (old : UInt32) (w : ω) :
    FailuresReported P timer old w ↔ ∀ lease start w₁ w₂, Delivers P leaseTimeFormat [] w lease w₁ →
      Delivers P startTimeFormat lease w₁ start w₂ → ∃ upTime w', UptimeDelivers P w₂ upTime w' := by
  have hreads : (∀ lease start w₁ w₂, Delivers P leaseTimeFormat [] w lease w₁ →
      Delivers P startTimeFormat lease w₁ start w₂ → ∃ upTime w', UptimeDelivers P w₂ upTime w') ↔
      EachRead P leaseTimeFormat [] (fun lease w₁ => EachRead P startTimeFormat lease
        (fun _ w₂ => ∃ upTime w', dhcpv4cGetUpTime P 0 w₂ = some (.ok,upTime,w')) w₁) w := by
    simp only [← query_delivers,← upTime_delivers]
    exact ⟨fun h lease w₁ hl start w₂ hs => h lease start w₁ w₂ hl hs,
      fun h lease start w₁ w₂ hl hs => h lease w₁ hl start w₂ hs⟩
  rw [hreads]
  have hget := (timer.getter_eq P (some old) w).trans (remainTime_eq P timer.threshold old w)
  rcases hl : query P leaseTimeFormat [] w with ⟨_ | _,lease,w₁⟩ <;> simp only [hl] at hget
  · rw [eachRead_ok hl]
    rcases hs : query P startTimeFormat lease w₁ with ⟨_ | _,start,w₂⟩ <;> simp only [hs] at hget
    · rw [eachRead_ok hs]
      constructor
      · -- the status of the uptime is ignored, and then no source stands behind the result
        rintro ⟨hfail,_⟩
        by_contra hup
        have hnone : ¬∃ lease start upTime w', AllDeliver P w lease start upTime w' := by
          rintro ⟨_,_,upTime,w',hall⟩
          exact hup ⟨upTime,w',((allDeliver_read hl hs _ _ _ _).mp hall).2.2⟩
        obtain ⟨w',herr⟩ := hfail hnone
        rw [hget] at herr
        cases hu : dhcpv4cGetUpTime P 0 w₂ <;> rw [hu] at herr <;> cases herr
      · rintro ⟨upTime,w₃,hu⟩
        have hall := (allDeliver_read hl hs _ _ _ _).mpr ⟨rfl,rfl,hu⟩
        rw [hu] at hget
        refine ⟨fun hnone => absurd ⟨_,_,_,_,hall⟩ hnone,fun value w' hok => ?_⟩
        rw [hget] at hok
        cases hok
        exact ⟨lease,start,upTime,hall,rfl⟩
    · exact iff_of_true (failuresReported_failed hget) (eachRead_failed hs _)
  · exact iff_of_true (failuresReported_failed hget) (eachRead_failed hl _)

def noUptime : Platform Snapshot := { Snapshot.platform Safec.reference with
  uptimeFile := fun s => (none,s) }

theorem noUptime_reported : ¬FailuresReported noUptime .lease 7 (shortLease []) := by
  rintro ⟨hfail,_⟩
  have hvalue : (Timer.lease.getter noUptime (some 7) (shortLease [])).map (fun q => (q.1,q.2.1)) =
      some (.ok,some 110) := by
    decide +kernel
  have hnone : ¬∃ lease start upTime w', AllDeliver noUptime (shortLease []) lease start upTime w' := by
    rintro ⟨_,_,_,_,_,_,_,_,text,_,hfile,_⟩
    cases hfile
  obtain ⟨w',herr⟩ := hfail hnone
  rw [herr] at hvalue
  cases hvalue

end RdkHal.Dhcp
