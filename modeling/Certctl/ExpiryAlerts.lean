import Certctl.NotificationRetries
import Certctl.RenewalTriggers

/-!
# Expiry alerts

Each sweep over the certificates about to expire sends an alert for every
threshold that the remaining days have crossed, on every channel that the
policy names for it, unless a notification for the same certificate,
threshold and channel is stored. The query looks neither at the status of
that notification nor at the expiry it was about, so a failed delivery, or
one before a renewal, suppresses the alert as a successful one does.
-/

namespace Certctl.ExpiryAlerts

open RecordTable DomainRecords RenewalTriggers NotificationRetries
open List hiding modify

/-- When alerts are sent, and where to. -/
structure RenewalPolicy where
  /-- Days before the expiry. -/
  alertThresholdsDays : List ℤ := []
  /-- The channels of each severity. -/
  alertChannels : List (String×List String) := []
  /-- The severity of each threshold. -/
  alertSeverityMap : List (ℤ×String) := []

/-- Days before the expiry. -/
def defaultAlertThresholds : List ℤ := [30,14,7,0]

/-- The channels of each severity. -/
def defaultAlertChannels : List (String×List String) :=
  [("informational",["Email"]),("warning",["Email"]),("critical",["Email"])]

/-- The severity of each threshold. -/
def defaultAlertSeverityMap : List (ℤ×String) := [(30,"informational"),(14,"warning"),(7,"warning"),(0,"critical")]

/-- The thresholds in force. -/
def effectiveAlertThresholds : Option RenewalPolicy→List ℤ
  | none => defaultAlertThresholds
  | some p => if p.alertThresholdsDays.isEmpty then defaultAlertThresholds else p.alertThresholdsDays

/-- The channels in force. -/
def effectiveAlertChannels : Option RenewalPolicy→List (String×List String)
  | none => defaultAlertChannels
  | some p => if p.alertChannels.isEmpty then defaultAlertChannels else p.alertChannels

/-- The severity of a threshold, by the policy or by default. -/
def effectiveAlertSeverity (policy : Option RenewalPolicy) (threshold : ℤ) : String :=
  ((policy.bind fun p => p.alertSeverityMap.lookup threshold).or
    (defaultAlertSeverityMap.lookup threshold)).getD "informational"

/-- The severities that are known. -/
def isValidAlertSeverityTier (tier : String) : Bool := ["informational","warning","critical"].contains tier

/-- The channels that are known. -/
def isValidNotificationChannel (channel : String) : Bool :=
  ["Email","Webhook","Slack","Teams","PagerDuty","OpsGenie"].contains channel

/-- The channels of a threshold; an unknown tier counts as the lowest, unknown channels are dropped. -/
def channelsFor (policy : Option RenewalPolicy) (threshold : ℤ) : List String :=
  let tier := effectiveAlertSeverity policy threshold
  let known := if isValidAlertSeverityTier tier then tier else "informational"
  (((effectiveAlertChannels policy).lookup known).getD []).filter isValidNotificationChannel

/-- The thresholds that have been crossed, each with its channels. -/
def dueAlerts (policy : Option RenewalPolicy) (daysUntil : ℤ) : List (ℤ×String) :=
  ((effectiveAlertThresholds policy).filter (daysUntil ≤ ·)).flatMap fun threshold =>
    (channelsFor policy threshold).map (threshold,·)

/-- Certificate, threshold and channel. -/
abbrev Alert := String×ℤ×String

/-- How the calls for one alert turn out. -/
inductive Outcome where
  | checkFails
  | insertFails
  | sendFails
  | sent
deriving DecidableEq

/-- What a sweep meets: the policies as they are read, and how each alert turns out. -/
structure Surroundings where
  /-- The policy of each certificate. -/
  policyOf : String→Option RenewalPolicy := fun _ => none
  outcome : Alert→Outcome := fun _ => .sent

/-- The channels that have a notifier, and how a date is written. -/
structure NotificationService where
  /-- Channels with a notifier. -/
  registry : List String
  /-- A day as it is printed. -/
  date : Time→String
  /-- No date has a bracket. -/
  date_plain : ∀ t,'[' ∉ (date t).toList

/-- A stored expiry warning. -/
structure Warning where
  certificateID : String
  channel : String
  message : String
  status : NotificationStatus

/-- The tables, the alerts delivered since the expiry of their certificate was set, and those attempted in
the latest sweep. -/
structure World where
  /-- The certificates. -/
  certs : List ManagedCertificate
  /-- The stored warnings. -/
  rows : List Warning := []
  delivered : List Alert := []
  attempted : List Alert := []

/-- The end of a message, by which its threshold is found again. -/
def tag (threshold : ℤ) : String := "[threshold:"++toString threshold++"]"

/-- The text of an alert. -/
def body (svc : NotificationService) (cert : ManagedCertificate) (daysUntil threshold : ℤ) : String :=
  (if threshold ≤ 0 then
    "[EXPIRED] The certificate for "++cert.commonName++" has expired ("++svc.date cert.expiresAt++
      ").\n\nImmediate action required.\n\n"
  else "The certificate for "++cert.commonName++" will expire in "++toString daysUntil++" days ("++
    svc.date cert.expiresAt++").\n\nPlease schedule renewal.\n\n")++tag threshold

/-- A warning of any status whose message has the tag; an empty certificate id is no filter. -/
def hasThresholdNotificationOnChannel (rows : List Warning) (certID : String) (threshold : ℤ) (channel : String) :
    Bool :=
  rows.any fun row => (certID="" || row.certificateID=certID) &&
    (tag threshold).toList <:+: row.message.toList && row.channel=channel

/-- Store and send one alert; a channel without notifier counts as sent. -/
def sendThresholdAlertOnChannel (svc : NotificationService) (env : Surroundings) (cert : ManagedCertificate)
    (daysUntil : ℤ) (w : World) (threshold : ℤ) (channel : String) : World :=
  let alert := (cert.id,threshold,channel)
  let stored := fun status => w.rows++[⟨cert.id,channel,body svc cert daysUntil threshold,status⟩]
  if env.outcome alert=.insertFails then w
  else if !svc.registry.contains channel then {w with rows := stored .sent}
  else if env.outcome alert=.sendFails then {w with rows := stored .failed, attempted := alert::w.attempted}
  else {w with rows := stored .sent, attempted := alert::w.attempted, delivered := alert::w.delivered}

/-- One alert, unless its notification is stored. -/
def alertOnChannel (svc : NotificationService) (env : Surroundings) (cert : ManagedCertificate) (daysUntil : ℤ)
    (w : World) (due : ℤ×String) : World :=
  if env.outcome (cert.id,due)=.checkFails then w
  else if hasThresholdNotificationOnChannel w.rows cert.id due.1 due.2 then w
  else sendThresholdAlertOnChannel svc env cert daysUntil w due.1 due.2

/-- All alerts of a certificate that are due. -/
def sendThresholdAlerts (svc : NotificationService) (env : Surroundings) (cert : ManagedCertificate)
    (daysUntil : ℤ) (w : World) : World :=
  (dueAlerts (env.policyOf cert.id) daysUntil).foldl (alertOnChannel svc env cert daysUntil) w

/-- The turn of a certificate in a sweep. -/
def alertOne (svc : NotificationService) (env : Surroundings) (now : Time) (w : World) (cert : ManagedCertificate) :
    World :=
  if sweepSkips cert.status then w
  else
    let newStatus := if cert.expiresAt ≤ now then CertificateStatus.expired else .expiring
    sendThresholdAlerts svc env cert (Int.tdiv (cert.expiresAt-now) day)
      {w with certs := modify ManagedCertificate.id cert.id (fun row => {row with status := newStatus}) w.certs}

/-- Those that expire within 31 days, the first to expire first. -/
def getExpiringCertificates (now : Time) (w : World) : List ManagedCertificate :=
  (w.certs.filter fun cert => cert.expiresAt<now+31*day && cert.status≠.archived).insertionSort
    fun a b => a.expiresAt ≤ b.expiresAt

/-- A sweep. -/
def checkExpiringCertificates (svc : NotificationService) (env : Surroundings) (now : Time) (w : World) : World :=
  (getExpiringCertificates now w).foldl (alertOne svc env now) {w with attempted := []}

/-- What happens between sweeps: a renewal sets a new expiry, and statuses change. -/
inductive Step where
  | tick (env : Surroundings) (now : Time)
  | renew (id : String) (expiresAt : Time)
  | setStatus (id : String) (status : CertificateStatus)

/-- What a step does. -/
def step (svc : NotificationService) (w : World) : Step→World
  | .tick env now => checkExpiringCertificates svc env now w
  | .renew id expiresAt =>
    {w with
      certs := modify ManagedCertificate.id id (fun row => {row with expiresAt := expiresAt, status := .active}) w.certs
      delivered := w.delivered.filter (·.1≠id)}
  | .setStatus id status =>
    {w with certs := modify ManagedCertificate.id id (fun row => {row with status := status}) w.certs}

/-- No call for an alert of the certificate fails, its name has no bracket, and its expiry is not set anew once
a warning of it is stored. -/
def Undisturbed (certID : String) (w : World) : Step→Prop
  | .tick env _ => (∀ due,env.outcome (certID,due)=.sent) ∧ ∀ cert∈w.certs,cert.id=certID → '[' ∉ cert.commonName.toList
  | .renew id _ => id=certID → ∀ row∈w.rows,row.certificateID≠certID
  | .setStatus _ _ => True

/-- Worlds reached from one without warnings by steps that all meet the condition. -/
inductive Run (svc : NotificationService) (ok : World→Step→Prop) : World→Prop where
  | start (certs : List ManagedCertificate) : Run svc ok ⟨certs,[],[],[]⟩
  | next {w : World} (s : Step) : Run svc ok w → ok w s → Run svc ok (step svc w s)

/-- The alert is attempted in the sweep, or was delivered before it. -/
def Alerted (svc : NotificationService) (w : World) (env : Surroundings) (now : Time) (alert : Alert) : Prop :=
  alert∈(checkExpiringCertificates svc env now w).attempted ∨ alert∈w.delivered

section Tags

variable {ch : Char}

theorem plain_repr (m : ℕ) (hdigit : ch.isDigit=false) : ch∉m.repr.toList := by
  intro hmem
  rw [Nat.repr,String.toList_ofList] at hmem
  rw [Nat.isDigit_of_mem_toDigits (by omega) le_rfl hmem] at hdigit
  cases hdigit

theorem repr_cancel {m n : ℕ} (h : m.repr.toList=n.repr.toList) : m=n := by
  rw [Nat.repr,Nat.repr,String.toList_ofList,String.toList_ofList] at h
  have hvalue := congrArg (Nat.ofDigitChars 10 · 0) h
  simpa only [Nat.ofDigitChars_ten_toDigits] using hvalue

/-- The decimal text of an integer determines it. -/
theorem toString_cancel {m n : ℤ} (h : (toString m).toList=(toString n).toList) : m=n := by
  have hsign : ∀ k : ℕ,(toString (Int.negSucc k)).toList= '-'::(k+1).repr.toList := fun k =>
    String.toList_append
  have hplain : ∀ k : ℕ,'-' ∉ k.repr.toList := fun k => plain_repr k rfl
  cases m with
  | ofNat m =>
    cases n with
    | ofNat n => exact congrArg Int.ofNat (repr_cancel h)
    | negSucc n =>
      rw [hsign] at h
      exact absurd (h ▸ mem_cons_self : '-'∈m.repr.toList) (hplain m)
  | negSucc m =>
    rw [hsign] at h
    cases n with
    | ofNat n => exact absurd (h ▸ mem_cons_self : '-'∈n.repr.toList) (hplain n)
    | negSucc n =>
      rw [hsign] at h
      exact congrArg Int.negSucc (Nat.succ.inj (repr_cancel (cons.inj h).2))

theorem plain_toString (n : ℤ) (hdigit : ch.isDigit=false) (hsign : ch≠ '-') : ch∉(toString n).toList := by
  cases n with
  | ofNat m => exact plain_repr m hdigit
  | negSucc m =>
    intro hmem
    change ch∈("-"++(m+1).repr).toList at hmem
    rw [String.toList_append] at hmem
    rcases mem_append.mp hmem with h|h
    · exact hsign (mem_singleton.mp h)
    · exact plain_repr _ hdigit h

/-- A text is cut in one way at a character that occurs once. -/
theorem cut_unique {a x f y : List Char} (h : a++ch::x=f++ch::y) (hf : ch∉f) (hy : ch∉y) : a=f ∧ x=y := by
  induction f generalizing a with
  | nil =>
    cases a with
    | nil => exact ⟨rfl,(List.cons.inj h).2⟩
    | cons b a =>
      refine absurd ?_ hy
      rw [← (List.cons.inj h).2]
      exact mem_append_right a mem_cons_self
  | cons c f ih =>
    cases a with
    | nil => exact absurd (mem_cons.mpr (.inl (List.cons.inj h).1)) hf
    | cons =>
      obtain ⟨hb,hrest⟩ := List.cons.inj h
      obtain ⟨ha,hx⟩ := ih hrest fun hc => hf (mem_cons_of_mem c hc)
      exact ⟨by rw [hb,ha],hx⟩

theorem toList_tag (n : ℤ) : (tag n).toList= '['::("threshold:".toList++((toString n).toList++[']'])) := by
  rw [tag,String.toList_append,String.toList_append]
  rfl

theorem tag_unique {n m : ℤ} {front : List Char} (hfront : '[' ∉ front)
    (h : (tag n).toList <:+: front++(tag m).toList) : n=m := by
  obtain ⟨a,b,hab⟩ := h
  rw [toList_tag,toList_tag,append_assoc,cons_append] at hab
  have htail : '[' ∉ "threshold:".toList++((toString m).toList++[']']) := by
    simp only [mem_append,not_or]
    exact ⟨by decide,plain_toString m rfl (by decide),by decide⟩
  have hrest := (cut_unique hab hfront htail).2
  rw [append_assoc,append_cancel_left_eq,append_assoc] at hrest
  have hnum := (cut_unique hrest (plain_toString m rfl (by decide)) not_mem_nil).1
  exact toString_cancel hnum

theorem body_tag {svc : NotificationService} {cert : ManagedCertificate} {days n threshold : ℤ}
    (hname : '[' ∉ cert.commonName.toList) (h : (tag n).toList <:+: (body svc cert days threshold).toList) :
    n=threshold := by
  have hdate := svc.date_plain cert.expiresAt
  have hcut : "[EXPIRED] The certificate for ".toList= '['::"EXPIRED] The certificate for ".toList := rfl
  unfold body at h
  rw [String.toList_append] at h
  split at h
  · simp only [String.toList_append,hcut,cons_append] at h
    -- the bracket at the beginning is no tag
    rcases infix_cons_iff.mp h with hpre|hinf
    · rw [toList_tag] at hpre
      exact absurd (cons_prefix_cons.mp hpre).2 (by simp)
    refine tag_unique ?_ hinf
    simp only [mem_append,not_or]
    exact ⟨⟨⟨⟨by decide,hname⟩,by decide⟩,hdate⟩,by decide⟩
  · refine tag_unique ?_ h
    simp only [String.toList_append,mem_append,not_or]
    exact ⟨⟨⟨⟨⟨⟨by decide,hname⟩,by decide⟩,plain_toString days rfl (by decide)⟩,by decide⟩,hdate⟩,by decide⟩

end Tags

section Sweeps

variable {svc : NotificationService} {env : Surroundings} {certID : String} {base : List Alert} {w : World}
  {cert : ManagedCertificate} {days : ℤ} {now : Time}

/-- A warning of the certificate on a channel with a notifier stands for a delivery. -/
def Recorded (svc : NotificationService) (certID : String) (w : World) : Prop :=
  ∀ row∈w.rows,row.certificateID=certID → svc.registry.contains row.channel=true →
    ∀ n,(tag n).toList <:+: row.message.toList → (certID,n,row.channel)∈w.delivered

/-- What holds within a sweep: what has been delivered was delivered before or is attempted in it. -/
structure Sweeping (svc : NotificationService) (certID : String) (base : List Alert) (w : World) : Prop where
  /-- Deliveries are on record. -/
  recorded : Recorded svc certID w
  known : ∀ a∈w.delivered,a∈base ∨ a∈w.attempted

/-- Every call that a sweep makes for the certificate goes through. -/
structure Answered (env : Surroundings) (certID : String) (cert : ManagedCertificate) : Prop where
  sent : ∀ due,env.outcome (certID,due)=.sent
  plain : cert.id=certID → '[' ∉ cert.commonName.toList

variable {a : Alert}

theorem attempted_alert (due : ℤ×String) (h : a∈w.attempted) :
    a∈(alertOnChannel svc env cert days w due).attempted := by
  unfold alertOnChannel sendThresholdAlertOnChannel
  dsimp only
  split_ifs <;> first | exact h | exact mem_cons_of_mem _ h

theorem sweeping_alert (hok : Answered env certID cert) (h : Sweeping svc certID base w) (due : ℤ×String) :
    Sweeping svc certID base (alertOnChannel svc env cert days w due) := by
  unfold alertOnChannel sendThresholdAlertOnChannel
  dsimp only
  -- a new warning of the certificate comes with its delivery, one of another certificate does not count
  have hnew : ∀ {w' : World} {status : NotificationStatus},
      w'.rows=w.rows++[⟨cert.id,due.2,body svc cert days due.1,status⟩] → (∀ a∈w.delivered,a∈w'.delivered) →
      (cert.id=certID → svc.registry.contains due.2=true → (cert.id,due.1,due.2)∈w'.delivered) →
      Recorded svc certID w' := by
    intro w' status hrows hkept hdone row hrow hid hchannel n hn
    rw [hrows] at hrow
    rcases mem_append_row.mp hrow with hold|rfl
    · exact hkept _ (h.recorded row hold hid hchannel n hn)
    rw [body_tag (hok.plain hid) hn,← hid]
    exact hdone hid hchannel
  split_ifs with hcheck hstored hinsert hchannel hsend
  · exact h
  · exact h
  · exact h
  · refine ⟨hnew rfl (fun _ ha => ha) fun _ hregistered => ?_,h.known⟩
    rw [hregistered] at hchannel
    cases hchannel
  · refine ⟨hnew rfl (fun _ ha => ha) fun hid _ => ?_,fun a ha => (h.known a ha).imp_right (mem_cons_of_mem _)⟩
    rw [hid,hok.sent] at hsend
    cases hsend
  refine ⟨hnew rfl (fun _ ha => mem_cons_of_mem _ ha) fun _ _ => mem_cons_self,fun a ha => ?_⟩
  rcases mem_cons.mp ha with rfl|hold
  · exact .inr mem_cons_self
  · exact (h.known a hold).imp_right (mem_cons_of_mem _)

theorem alerted_alert (hok : Answered env cert.id cert) (hcert : cert.id≠"") (h : Sweeping svc cert.id base w)
    {due : ℤ×String} (hregistered : svc.registry.contains due.2=true) :
    (cert.id,due)∈base ∨ (cert.id,due)∈(alertOnChannel svc env cert days w due).attempted := by
  have hsent := hok.sent due
  unfold alertOnChannel sendThresholdAlertOnChannel
  dsimp only
  split_ifs with hcheck hstored hinsert hchannel hsend
  · rw [hsent] at hcheck
    cases hcheck
  · obtain ⟨row,hrow,hmatch⟩ := any_eq_true.mp hstored
    simp only [Bool.and_eq_true,Bool.or_eq_true,decide_eq_true_eq,hcert,false_or] at hmatch
    obtain ⟨⟨hid,htag⟩,hch⟩ := hmatch
    have hdone := h.recorded row hrow hid (by rw [hch]; exact hregistered) due.1 htag
    rw [hch] at hdone
    exact h.known _ hdone
  · exact absurd hinsert (by rw [hsent]; exact nofun)
  · rw [hregistered] at hchannel
    cases hchannel
  · exact .inr mem_cons_self
  · exact .inr mem_cons_self

theorem foldl_reaches {α β : Type} {f : β→α→β} {I P : β→Prop} {l : List α} {x : α} (hx : x∈l)
    (hI : ∀ b,∀ a∈l,I b → I (f b a)) (hP : ∀ b,∀ a∈l,P b → P (f b a)) (hreach : ∀ b,I b → P (f b x)) {b : β}
    (hb : I b) : P (l.foldl f b) := by
  induction l generalizing b with
  | nil => exact absurd hx not_mem_nil
  | cons a rest ih =>
    have hrestP := fun b' a' ha' => hP b' a' (mem_cons_of_mem a ha')
    rcases mem_cons.mp hx with rfl|hrest
    · exact List.foldlRecOn rest f (hreach b hb) fun b' hb' a' ha' => hrestP b' a' ha' hb'
    · exact ih hrest (fun b' a' ha' => hI b' a' (mem_cons_of_mem a ha')) hrestP (hI b a mem_cons_self hb)

theorem sweeping_alertOne (hok : Answered env certID cert) (h : Sweeping svc certID base w) :
    Sweeping svc certID base (alertOne svc env now w cert) := by
  unfold alertOne
  split
  · exact h
  · exact List.foldlRecOn _ _ ⟨h.recorded,h.known⟩ fun _ hb due _ => sweeping_alert hok hb due

theorem attempted_alertOne (h : a∈w.attempted) : a∈(alertOne svc env now w cert).attempted := by
  unfold alertOne
  split
  · exact h
  · exact List.foldlRecOn (motive := fun b : World => a∈b.attempted) _ _ h fun _ hb due _ => attempted_alert due hb

theorem mem_getExpiringCertificates : cert∈getExpiringCertificates now w ↔
    cert∈w.certs ∧ cert.expiresAt<now+31*day ∧ cert.status≠.archived := by
  rw [getExpiringCertificates,mem_insertionSort,mem_filter,Bool.and_eq_true,decide_eq_true_eq,decide_eq_true_eq]

theorem answered_of_undisturbed (hok : Undisturbed certID w (.tick env now)) (hcert : cert∈getExpiringCertificates now w) :
    Answered env certID cert :=
  ⟨hok.1,hok.2 cert (mem_getExpiringCertificates.mp hcert).1⟩

theorem recorded_step (h : Recorded svc certID w) {s : Step} (hok : Undisturbed certID w s) :
    Recorded svc certID (step svc w s) := by
  cases s with
  | tick =>
    have hstart : Sweeping svc certID w.delivered {w with attempted := []} := ⟨h,fun _ ha => .inl ha⟩
    exact (List.foldlRecOn (motive := Sweeping svc certID w.delivered) _ _ hstart fun _ hb cert hcert =>
      sweeping_alertOne (answered_of_undisturbed hok hcert) hb).recorded
  | renew =>
    intro row hrow hid hchannel n hn
    refine mem_filter.mpr ⟨h row hrow hid hchannel n hn,decide_eq_true ?_⟩
    exact fun hsame => hok hsame.symm row hrow hid
  | setStatus => exact h

theorem recorded_run (h : Run svc (Undisturbed certID) w) : Recorded svc certID w := by
  induction h with
  | start => exact forall_mem_nil _
  | next s _ hok ih => exact recorded_step ih hok

/-- When no call for the certificate has failed, its expiry has not been set anew after a warning and its name has
no bracket, every alert that is due on a channel with a notifier is attempted or was delivered. -/
theorem due_alerts_attempted (hrun : Run svc (Undisturbed cert.id) w) (hok : Undisturbed cert.id w (.tick env now))
    (hid : cert.id≠"") (hcert : cert∈w.certs) (hsoon : cert.expiresAt<now+31*day)
    (hstatus : sweepSkips cert.status=false) {due : ℤ×String}
    (hdue : due∈dueAlerts (env.policyOf cert.id) (Int.tdiv (cert.expiresAt-now) day))
    (hchannel : svc.registry.contains due.2=true) : Alerted svc w env now (cert.id,due) := by
  have harchived : cert.status≠.archived := by
    intro h
    rw [h] at hstatus
    cases hstatus
  have hread := mem_getExpiringCertificates.mpr ⟨hcert,hsoon,harchived⟩
  have hrecorded := recorded_run hrun
  have hstart : Sweeping svc cert.id w.delivered {w with attempted := []} := ⟨hrecorded,fun _ ha => .inl ha⟩
  have hdone : (cert.id,due)∈w.delivered ∨ (cert.id,due)∈(checkExpiringCertificates svc env now w).attempted := by
    refine foldl_reaches (I := Sweeping svc cert.id w.delivered)
      (P := fun b => (cert.id,due)∈w.delivered ∨ (cert.id,due)∈b.attempted) hread
      (fun _ c hc hb => sweeping_alertOne (answered_of_undisturbed hok hc) hb)
      (fun _ _ _ hb => hb.imp_right attempted_alertOne) (fun b hb => ?_) hstart
    have hown := answered_of_undisturbed hok hread
    unfold alertOne
    rw [hstatus]
    exact foldl_reaches (I := Sweeping svc cert.id w.delivered)
      (P := fun b => (cert.id,due)∈w.delivered ∨ (cert.id,due)∈b.attempted) hdue
      (fun _ due' _ hb' => sweeping_alert hown hb' due') (fun _ due' _ hb' => hb'.imp_right (attempted_alert due'))
      (fun _ hb' => alerted_alert hown hid hb' hchannel) ⟨hb.recorded,hb.known⟩
  exact hdone.symm

end Sweeps

/-- Mail is the only channel. -/
def sampleService : NotificationService := ⟨["Email"],fun _ => "2026-05-03",fun _ => by decide⟩

/-- It expires after twenty days. -/
def sampleCert : ManagedCertificate :=
  {id := "mc-1", commonName := "example.com", status := .active, expiresAt := 20*day}

/-- No warning is stored yet. -/
def sampleWorld : World := ⟨[sampleCert],[],[],[]⟩

/-- Ten days after the mail about thirty days, the one about fourteen is due, and the first still counts. -/
theorem due_alerts_attempted_sample : ∃ w,
    Run sampleService (Undisturbed "mc-1") w ∧ w.delivered=[("mc-1",30,"Email")] ∧
      ∀ threshold∈[30,14],Alerted sampleService w {} (10*day) ("mc-1",threshold,"Email") := by
  have hrun : Run sampleService (Undisturbed "mc-1") (step sampleService sampleWorld (.tick {} 0)) :=
    .next _ (.start [sampleCert]) ⟨fun _ => rfl,by decide⟩
  refine ⟨_,hrun,by decide +kernel,fun threshold hthreshold => ?_⟩
  have hdue : ∀ n∈[30,14],(n,"Email")∈dueAlerts none (Int.tdiv (20*day-10*day) day) := by decide +kernel
  have hcert : {sampleCert with status := .expiring}∈(step sampleService sampleWorld (.tick {} 0)).certs := mem_cons_self
  exact due_alerts_attempted hrun ⟨fun _ => rfl,by decide +kernel⟩ (by decide) hcert (by decide) rfl
    (hdue threshold hthreshold) rfl

/-- Twenty days before its expiry the mail for a certificate fails, and the next day's sweep sends none; a mail is
sent twenty days before the expiry, and none after a renewal, twenty days before the next. -/
theorem alert_suppressed :
    (30,"Email")∈dueAlerts none (Int.tdiv (20*day-day) day) ∧
    ¬Alerted sampleService (step sampleService sampleWorld (.tick {outcome := fun _ => .sendFails} 0)) {} day
      ("mc-1",30,"Email") ∧
    ¬Alerted sampleService
      (step sampleService (step sampleService sampleWorld (.tick {} 0)) (.renew "mc-1" (100*day))) {} (80*day)
      ("mc-1",30,"Email") := by
  unfold Alerted
  decide +kernel

end Certctl.ExpiryAlerts
