import SierraSdk.Qm.DcsService

/-!
# The table of applications

`qmconnect` enters the channel of an application in the table, and `qmdisconnect` removes it. When
the table has no registered application left, all QMI clients are closed.

What the table is for is a set of channels: those that were connected since they were last
disconnected (`connectedSince`). An application for which there is no entry is not registered, and
nothing says so; and a channel that is not in the table closes all clients if the table is empty.
`tracksApplications_iff` says that nothing else goes wrong.
-/

namespace SierraSdk

namespace Qm

open Machine

section Definitions

/-- A channel that an application may have. -/
structure QmChannel where
  channel : UInt8
  known : channel ≠ qmAppChannelUnknown

/-- A call of `qmconnect` or `qmdisconnect`, or what the rest of the daemon does, which leaves the
table alone. -/
inductive AppCall where
  | connect (c : QmChannel)
  | disconnect (c : QmChannel)
  | rest (t : QmTcb)

def appStep (s : QmTcb) : AppCall → QmTcb × List QmOut
  | .connect c => (qmconnect s c.channel, [])
  | .disconnect c => qmdisconnect s c.channel
  | .rest t => ({ t with qmappInfo := s.qmappInfo }, [])

/-- Whether a channel is connected after a call. -/
def AppCall.leaves (c : QmChannel) (was : Bool) : AppCall → Bool
  | .connect d => was || d.channel = c.channel
  | .disconnect d => was && d.channel ≠ c.channel
  | .rest _ => was

/-- A channel was connected since it was last disconnected. -/
def connectedSince (c : QmChannel) (calls : List AppCall) : Bool :=
  calls.foldl (AppCall.leaves c) false

/-- A channel has an entry of the table. -/
def Registered (s : QmTcb) (c : QmChannel) : Prop := qmIsAppRegistered s c.channel eQMIREQ = true

instance (s : QmTcb) (c : QmChannel) : Decidable (Registered s c) :=
  inferInstanceAs (Decidable (_ = true))

/-- What is left when the communication with the device is torn down, and what is done for it. -/
def tearDown (s : QmTcb) : QmTcb × List QmOut :=
  ({ (qmderegisterclients s).1 with activewdsclient := .wds 0 }, (qmderegisterclients s).2)

/-- The table keeps track of the applications in a run: no channel is in it twice, those in it are
the ones that are connected, a connect that does not fit is reported, and to disconnect a channel
that is not there changes nothing. The clients are closed when the last application leaves, and only
then. -/
structure TracksApplications (calls : List AppCall) : Prop where
  once : ∀ pre post, calls = pre ++ post → ∀ c : QmChannel,
    (after appStep qminit pre).qmappInfo.countP (·.qmipcchannel = c.channel) ≤ 1
  connected : ∀ pre post, calls = pre ++ post → ∀ c : QmChannel,
    Registered (after appStep qminit pre) c ↔ connectedSince c pre = true
  reported : ∀ pre c post, calls = pre ++ .connect c :: post →
    let r := appStep (after appStep qminit pre) (.connect c)
    Registered r.1 c ∨ r.2 ≠ []
  unknown : ∀ pre c post, calls = pre ++ .disconnect c :: post →
    let s := after appStep qminit pre
    ¬ Registered s c → appStep s (.disconnect c) = (s, [])
  last : ∀ pre c post, calls = pre ++ .disconnect c :: post →
    let s := after appStep qminit pre
    Registered s c → (∀ d, Registered s d → d = c) →
      appStep s (.disconnect c) =
        tearDown { s with qmappInfo := List.replicate qmMaxAppSupported QmAppInfo.unused }
  others : ∀ pre c d post, calls = pre ++ .disconnect c :: post →
    let s := after appStep qminit pre
    Registered s c → Registered s d → d ≠ c →
      ∃ apps, appStep s (.disconnect c) = ({ s with qmappInfo := apps }, [])

/-- No client is open. -/
structure NothingOpen (s : QmTcb) : Prop where
  clients : ∀ client ∈ QmiClient.all, (s.qmiclients client).registered = false
  activewdsclient : s.activewdsclient = .wds 0

/-- There is an entry for an application that is connected, and if none is registered when one is
disconnected, no client is open. -/
def Fits (s : QmTcb) : AppCall → Prop
  | .connect c => Registered s c ∨ HasFreeEntry s
  | .disconnect _ => qmNoOfAppsRunning s ≠ 0 ∨ NothingOpen s
  | .rest _ => True

end Definitions

section Entries

variable {α : Type} {p : α → Bool} {l : List α}

/-- The first element with a property is replaced, if there is one. -/
theorem modify_findIdx_cases (p : α → Bool) (b : α) (l : List α) :
    (∃ pre a post, l = pre ++ a :: post ∧ p a = true ∧
        l.modify (l.findIdx p) (fun _ => b) = pre ++ b :: post) ∨
      ((∀ a ∈ l, p a = false) ∧ l.modify (l.findIdx p) (fun _ => b) = l) := by
  induction l with
  | nil => exact .inr ⟨fun a ha => absurd ha List.not_mem_nil, rfl⟩
  | cons x l ih =>
      by_cases hx : p x = true
      · refine .inl ⟨[], x, l, rfl, hx, ?_⟩
        rw [List.findIdx_cons, hx]
        rfl
      · have hx : p x = false := Bool.not_eq_true _ ▸ hx
        have hindex : (x :: l).findIdx p = l.findIdx p + 1 := by
          rw [List.findIdx_cons, hx]
          rfl
        rw [hindex, List.modify_succ_cons]
        rcases ih with ⟨pre, a, post, hsplit, ha, hmodify⟩ | ⟨hnone, hmodify⟩
        · exact .inl ⟨x :: pre, a, post, by rw [hsplit]; rfl, ha, by rw [hmodify]; rfl⟩
        · exact .inr ⟨List.forall_mem_cons.mpr ⟨hx, hnone⟩, by rw [hmodify]⟩

end Entries

section Table

/-- An entry is free or that of a registered application, no channel has two of them, and those that
have one are the given ones. -/
structure Table (apps : List QmAppInfo) (connected : QmChannel → Bool) : Prop where
  entry : ∀ app ∈ apps, app = QmAppInfo.unused ∨
    app.qmappregistered = true ∧ app.qmipcchannel ≠ qmAppChannelUnknown
  length : apps.length = qmMaxAppSupported
  once : ∀ c : QmChannel, apps.countP (·.qmipcchannel = c.channel) ≤ 1
  mem : ∀ c : QmChannel, (∃ app ∈ apps, app.qmipcchannel = c.channel) ↔ connected c = true

variable {apps : List QmAppInfo} {connected : QmChannel → Bool}

theorem table_init : Table qminit.qmappInfo (connectedSince · []) where
  entry app happ := .inl (List.eq_of_mem_replicate happ)
  length := List.length_replicate
  once c := by
    rw [List.countP_eq_zero.mpr]
    · exact Nat.zero_le 1
    · intro app happ
      rw [List.eq_of_mem_replicate happ, decide_eq_true_eq]
      exact c.known.symm
  mem c := by
    constructor
    · rintro ⟨app, happ, hchannel⟩
      rw [List.eq_of_mem_replicate happ] at hchannel
      exact absurd hchannel.symm c.known
    · exact fun h => Bool.noConfusion h

theorem exists_entry_iff (pre : List QmAppInfo) (a : QmAppInfo) (post : List QmAppInfo)
    (channel : UInt8) :
    (∃ app ∈ pre ++ a :: post, app.qmipcchannel = channel) ↔
      a.qmipcchannel = channel ∨ ∃ app ∈ pre ++ post, app.qmipcchannel = channel := by
  have hmem : ∀ app, app ∈ pre ++ a :: post ↔ app = a ∨ app ∈ pre ++ post := fun app =>
    List.perm_middle.mem_iff.trans List.mem_cons
  constructor
  · rintro ⟨app, happ, hchannel⟩
    rcases (hmem app).mp happ with rfl | hrest
    · exact .inl hchannel
    · exact .inr ⟨app, hrest, hchannel⟩
  · rintro (hchannel | ⟨app, happ, hchannel⟩)
    · exact ⟨a, (hmem a).mpr (.inl rfl), hchannel⟩
    · exact ⟨app, (hmem app).mpr (.inr happ), hchannel⟩

theorem countP_entry (pre : List QmAppInfo) (a : QmAppInfo) (post : List QmAppInfo)
    (channel : UInt8) :
    (pre ++ a :: post).countP (·.qmipcchannel = channel) =
      (pre ++ post).countP (·.qmipcchannel = channel) +
        if a.qmipcchannel = channel then 1 else 0 := by
  rw [List.perm_middle.countP_eq, List.countP_cons]
  simp only [decide_eq_true_eq]

theorem Table.entry_of_split {pre post : List QmAppInfo} {a : QmAppInfo}
    (h : Table (pre ++ a :: post) connected) : ∀ app ∈ pre ++ post, app = QmAppInfo.unused ∨
      app.qmappregistered = true ∧ app.qmipcchannel ≠ qmAppChannelUnknown :=
  fun app happ => h.entry app (List.perm_middle.mem_iff.mpr (List.mem_cons_of_mem a happ))

/-- A split of the table at an entry with a channel: the other entries have other channels. -/
theorem Table.ne_of_split {pre post : List QmAppInfo} {a : QmAppInfo} {c : QmChannel}
    (h : Table (pre ++ a :: post) connected) (ha : a.qmipcchannel = c.channel) :
    ¬ ∃ app ∈ pre ++ post, app.qmipcchannel = c.channel := by
  have hone := h.once c
  rw [countP_entry, if_pos ha] at hone
  rintro ⟨app, happ, hchannel⟩
  have hpos : 0 < (pre ++ post).countP (·.qmipcchannel = c.channel) :=
    List.countP_pos_iff.mpr ⟨app, happ, decide_eq_true hchannel⟩
  omega

/-- Another entry in the place of one. -/
theorem Table.replace {pre post : List QmAppInfo} {a b : QmAppInfo}
    {connected' : QmChannel → Bool} (h : Table (pre ++ a :: post) connected)
    (hentry : b = QmAppInfo.unused ∨
      b.qmappregistered = true ∧ b.qmipcchannel ≠ qmAppChannelUnknown)
    (hnew : ∀ c : QmChannel, b.qmipcchannel = c.channel →
      ¬ ∃ app ∈ pre ++ post, app.qmipcchannel = c.channel)
    (hmem : ∀ c : QmChannel, (b.qmipcchannel = c.channel ∨
      ∃ app ∈ pre ++ post, app.qmipcchannel = c.channel) ↔ connected' c = true) :
    Table (pre ++ b :: post) connected' where
  entry app happ := by
    rcases List.mem_cons.mp (List.perm_middle.mem_iff.mp happ) with rfl | hrest
    · exact hentry
    · exact h.entry_of_split app hrest
  length := by
    rw [← h.length, List.length_append, List.length_append, List.length_cons, List.length_cons]
  once c := by
    have hone := h.once c
    rw [countP_entry] at hone ⊢
    split_ifs with hc
    · have hzero : (pre ++ post).countP (·.qmipcchannel = c.channel) = 0 :=
        List.countP_eq_zero.mpr fun app happ heq => hnew c hc ⟨app, happ, of_decide_eq_true heq⟩
      rw [hzero]
    · exact Nat.le_of_add_right_le hone
  mem c := (exists_entry_iff pre b post c.channel).trans (hmem c)

/-- A channel that is not in the table is entered in place of a free entry. -/
theorem Table.enter {pre post : List QmAppInfo} {a : QmAppInfo} {c : QmChannel}
    (h : Table (pre ++ a :: post) connected) (ha : a.qmipcchannel = qmAppChannelUnknown)
    (hnew : ¬ ∃ app ∈ pre ++ a :: post, app.qmipcchannel = c.channel) :
    Table (pre ++ ⟨c.channel, true⟩ :: post)
      (fun d => connected d || decide (c.channel = d.channel)) := by
  have hrest : ∀ d : QmChannel, (∃ app ∈ pre ++ post, app.qmipcchannel = d.channel) ↔
      connected d = true := by
    intro d
    rw [← h.mem d, exists_entry_iff]
    exact (or_iff_right fun hd => d.known (hd.symm.trans ha)).symm
  refine h.replace (.inr ⟨rfl, c.known⟩) (fun d hd => ?_) fun d => ?_
  · rw [← hd]
    rw [exists_entry_iff, not_or] at hnew
    exact hnew.2
  · rw [Bool.or_eq_true, hrest d, decide_eq_true_eq]
    exact or_comm

/-- A channel that is in the table is removed. -/
theorem Table.remove {pre post : List QmAppInfo} {a : QmAppInfo} {c : QmChannel}
    (h : Table (pre ++ a :: post) connected) (ha : a.qmipcchannel = c.channel) :
    Table (pre ++ QmAppInfo.unused :: post)
      (fun d => connected d && decide (c.channel ≠ d.channel)) := by
  have hunused : ∀ d : QmChannel, QmAppInfo.unused.qmipcchannel ≠ d.channel :=
    fun d => d.known.symm
  refine h.replace (.inl rfl) (fun d hd => absurd hd (hunused d)) fun d => ?_
  rw [Bool.and_eq_true, ← h.mem d, exists_entry_iff, decide_eq_true_eq, ha,
    or_iff_right (hunused d)]
  constructor
  · intro hrest
    refine ⟨.inr hrest, fun hsame => ?_⟩
    exact h.ne_of_split ha (hsame ▸ hrest)
  · rintro ⟨hsame | hrest, hne⟩
    · exact absurd hsame hne
    · exact hrest

theorem Table.congr {connected' : QmChannel → Bool} (h : Table apps connected)
    (hsame : ∀ c, connected c = connected' c) : Table apps connected' := by
  have hfun : connected = connected' := funext hsame
  rwa [← hfun]

/-- The applications that are running are those that have an entry. -/
theorem Table.running_eq_zero_iff {s : QmTcb} (h : Table s.qmappInfo connected) :
    qmNoOfAppsRunning s = 0 ↔ ∀ c, connected c = false := by
  rw [qmNoOfAppsRunning, List.countP_eq_zero]
  constructor
  · intro hnone c
    by_contra hconnected
    obtain ⟨app, happ, hchannel⟩ := (h.mem c).mpr (Bool.not_eq_false _ ▸ hconnected)
    rcases h.entry app happ with rfl | hused
    · exact c.known hchannel.symm
    · exact hnone app happ hused.1
  · intro hnone app happ hregistered
    rcases h.entry app happ with rfl | hused
    · exact Bool.noConfusion hregistered
    · have hconnected := (h.mem ⟨app.qmipcchannel, hused.2⟩).mp ⟨app, happ, rfl⟩
      rw [hnone] at hconnected
      exact Bool.noConfusion hconnected

/-- A table without applications. -/
theorem Table.eq_replicate (h : Table apps connected) (hnone : ∀ c, connected c = false) :
    apps = List.replicate qmMaxAppSupported QmAppInfo.unused := by
  rw [List.eq_replicate_iff]
  refine ⟨h.length, fun app happ => ?_⟩
  refine (h.entry app happ).resolve_right fun hused => ?_
  have hconnected := (h.mem ⟨app.qmipcchannel, hused.2⟩).mp ⟨app, happ, rfl⟩
  rw [hnone] at hconnected
  exact Bool.noConfusion hconnected

end Table

section Steps

variable {s : QmTcb} {connected : QmChannel → Bool} {c : QmChannel}

theorem QmChannel.eq_of_channel {c d : QmChannel} (h : c.channel = d.channel) : c = d := by
  cases c
  cases d
  cases h
  rfl

theorem Table.registered_iff (h : Table s.qmappInfo connected) (c : QmChannel) :
    Registered s c ↔ connected c = true :=
  (qmIsAppRegistered_eQMIREQ s c.channel).trans (h.mem c)

theorem table_qmconnect (h : Table s.qmappInfo connected)
    (hfits : Registered s c ∨ HasFreeEntry s) :
    Table (qmconnect s c.channel).qmappInfo
      (fun d => connected d || decide (c.channel = d.channel)) := by
  by_cases hregistered : Registered s c
  · rw [qmconnect_of_full (.inl hregistered)]
    refine h.congr fun d => ?_
    by_cases hsame : c.channel = d.channel
    · rw [← QmChannel.eq_of_channel hsame, (h.registered_iff c).mp hregistered]
      rfl
    · rw [decide_eq_false hsame, Bool.or_false]
  · obtain ⟨app, happ, hfree⟩ := hfits.resolve_left hregistered
    have hnot : ¬ qmIsAppRegistered s c.channel eQMIREQ = true := hregistered
    rw [qmconnect, if_neg hnot]
    rw [qmIsAppRegistered_eQMIREQ] at hnot
    rcases modify_findIdx_cases (fun app : QmAppInfo => app.qmipcchannel = qmAppChannelUnknown)
        ⟨c.channel, true⟩ s.qmappInfo with ⟨pre, a, post, hsplit, ha, hmodify⟩ | ⟨hnone, -⟩
    · rw [hsplit] at h hnot
      dsimp only
      rw [hmodify]
      exact h.enter (of_decide_eq_true ha) hnot
    · exact absurd hfree (of_decide_eq_false (hnone app happ))

/-- Disconnecting a channel that has an entry removes that entry. -/
theorem qmdisconnect_registered (h : Table s.qmappInfo connected) (hc : Registered s c) :
    ∃ apps, Table apps (fun d => connected d && decide (c.channel ≠ d.channel)) ∧
      qmdisconnect s c.channel =
        if qmNoOfAppsRunning { s with qmappInfo := apps } = 0 then
          tearDown { s with qmappInfo := apps }
        else ({ s with qmappInfo := apps }, []) := by
  obtain ⟨app, happ, hchannel⟩ := (qmIsAppRegistered_eQMIREQ s c.channel).mp hc
  rcases modify_findIdx_cases (fun app : QmAppInfo => app.qmipcchannel = c.channel)
      QmAppInfo.unused s.qmappInfo with ⟨pre, a, post, hsplit, ha, hmodify⟩ | ⟨hnone, -⟩
  · rw [hsplit] at h
    refine ⟨_, h.remove (of_decide_eq_true ha), ?_⟩
    rw [← hmodify]
    rfl
  · exact absurd hchannel (of_decide_eq_false (hnone app happ))

/-- Disconnecting a channel that has none tears down the communication if the table is empty. -/
theorem qmdisconnect_unknown (hc : ¬ Registered s c) :
    qmdisconnect s c.channel = if qmNoOfAppsRunning s = 0 then tearDown s else (s, []) := by
  have hnone : ¬ ∃ app ∈ s.qmappInfo, app.qmipcchannel = c.channel :=
    fun h => hc ((qmIsAppRegistered_eQMIREQ s c.channel).mpr h)
  rcases modify_findIdx_cases (fun app : QmAppInfo => app.qmipcchannel = c.channel)
      QmAppInfo.unused s.qmappInfo with ⟨pre, a, post, hsplit, ha, -⟩ | ⟨-, hmodify⟩
  · refine absurd ⟨a, ?_, of_decide_eq_true ha⟩ hnone
    rw [hsplit]
    exact List.mem_append_right pre (List.mem_cons_self ..)
  · simp only [qmdisconnect, hmodify, tearDown]

theorem tearDown_eq (s : QmTcb) :
    tearDown s =
      ({ s with
          qmiclients := forgetRegistered QmiClient.all s.qmiclients
          activewdsclient := .wds 0 },
        closeRegistered QmiClient.all s.qmiclients) := by
  rw [tearDown, qmderegisterclients_eq]

/-- There is nothing to tear down exactly when no client is open. -/
theorem tearDown_eq_self_iff (s : QmTcb) : tearDown s = (s, []) ↔ NothingOpen s := by
  rw [tearDown_eq]
  constructor
  · intro h
    obtain ⟨hstate, hclosed⟩ := Prod.mk.inj h
    refine ⟨fun client hclient => ?_, (congrArg QmTcb.activewdsclient hstate).symm⟩
    rw [closeRegistered, List.map_eq_nil_iff, List.filter_eq_nil_iff] at hclosed
    exact Bool.not_eq_true _ ▸ hclosed client hclient
  · intro h
    have hforget : forgetRegistered QmiClient.all s.qmiclients = s.qmiclients := by
      funext client
      rw [forgetRegistered]
      split_ifs with hopen
      · exact absurd ((h.clients client hopen.1).symm.trans hopen.2) Bool.false_ne_true
      · rfl
    have hclosed : closeRegistered QmiClient.all s.qmiclients = [] := by
      rw [closeRegistered, List.map_eq_nil_iff, List.filter_eq_nil_iff]
      exact fun client hclient => Bool.not_eq_true _ ▸ h.clients client hclient
    rw [hforget, hclosed, ← h.activewdsclient]

/-- The table is that of the channels that are connected after a call. -/
theorem table_appStep (h : Table s.qmappInfo connected) {call : AppCall} (hfits : Fits s call) :
    Table (appStep s call).1.qmappInfo (fun c => call.leaves c (connected c)) := by
  cases call with
  | connect c => exact table_qmconnect h hfits
  | disconnect c =>
      by_cases hc : Registered s c
      · obtain ⟨apps, htable, heq⟩ := qmdisconnect_registered h hc
        rw [appStep, heq]
        split_ifs
        · rw [tearDown_eq]
          exact htable.congr fun d => by simp only [AppCall.leaves]
        · exact htable.congr fun d => by simp only [AppCall.leaves]
      · have hleaves : ∀ d, connected d = AppCall.leaves d (connected d) (.disconnect c) := by
          intro d
          by_cases hsame : c.channel = d.channel
          · rw [← QmChannel.eq_of_channel hsame, Bool.eq_false_iff.mpr fun hconnected =>
              hc ((h.registered_iff c).mpr hconnected)]
            rfl
          · rw [AppCall.leaves, decide_eq_true hsame, Bool.and_true]
        rw [appStep, qmdisconnect_unknown hc]
        split_ifs
        · rw [tearDown_eq]
          exact h.congr hleaves
        · exact h.congr hleaves
  | rest t => exact h

theorem table_run {calls : List AppCall} (h : Table s.qmappInfo connected)
    (hfits : Meets appStep Fits s calls) :
    Table (after appStep s calls).qmappInfo
      (fun c => calls.foldl (AppCall.leaves c) (connected c)) := by
  induction calls generalizing s connected with
  | nil => exact h
  | cons call calls ih => exact ih (table_appStep h hfits.1) hfits.2

end Steps

/-- The first call that does not fit is one that the table loses track at. -/
theorem fits_of_tracks {pre : List AppCall} {call : AppCall} {post : List AppCall}
    (h : TracksApplications (pre ++ call :: post)) (hpre : Meets appStep Fits qminit pre) :
    Fits (after appStep qminit pre) call := by
  have htable := table_run table_init hpre
  cases call with
  | connect c =>
      by_contra hfits
      obtain ⟨hnew, hfull⟩ := not_or.mp hfits
      rcases h.reported pre c post rfl with hregistered | hreported
      · simp only [appStep, qmconnect_of_full (.inr hfull)] at hregistered
        exact hnew hregistered
      · exact hreported rfl
  | disconnect c =>
      by_cases hnone : qmNoOfAppsRunning (after appStep qminit pre) = 0
      · have hc : ¬ Registered (after appStep qminit pre) c := by
          rw [htable.registered_iff c, htable.running_eq_zero_iff.mp hnone c]
          exact Bool.false_ne_true
        have hsame := h.unknown pre c post rfl hc
        rw [appStep, qmdisconnect_unknown hc, if_pos hnone] at hsame
        exact .inr ((tearDown_eq_self_iff _).mp hsame)
      · exact .inl hnone
  | rest t => trivial

/-- The table keeps track of the applications in exactly the runs whose calls fit. -/
theorem tracksApplications_iff (calls : List AppCall) :
    TracksApplications calls ↔ Meets appStep Fits qminit calls := by
  constructor
  · intro h
    by_contra hfits
    obtain ⟨pre, call, post, rfl, hpre, hfail⟩ := not_meets_iff.mp hfits
    exact hfail (fits_of_tracks h hpre)
  · intro h
    have htable : ∀ pre post, calls = pre ++ post →
        Table (after appStep qminit pre).qmappInfo (connectedSince · pre) := by
      intro pre post hsplit
      rw [hsplit, meets_append] at h
      exact table_run table_init h.1
    have hfits : ∀ pre call post, calls = pre ++ call :: post →
        Fits (after appStep qminit pre) call := meets_iff.mp h
    refine ⟨fun pre post hsplit => (htable pre post hsplit).once,
      fun pre post hsplit c => (htable pre post hsplit).registered_iff c,
      fun pre c post hsplit => .inl ?_, fun pre c post hsplit hc => ?_,
      fun pre c post hsplit hc hlast => ?_, fun pre c d post hsplit hc hd hne => ?_⟩
    · exact qmconnect_registered (hfits _ _ _ hsplit)
    · rw [appStep, qmdisconnect_unknown hc]
      split_ifs with hnone
      · rw [tearDown_eq_self_iff]
        exact (hfits _ _ _ hsplit).resolve_left fun hrunning => hrunning hnone
      · rfl
    · have hbefore := htable _ _ hsplit
      obtain ⟨apps, hafter, heq⟩ := qmdisconnect_registered hbefore hc
      have hnone : ∀ d, (connectedSince d pre && decide (c.channel ≠ d.channel)) = false := by
        intro d
        by_cases hd : connectedSince d pre = true
        · have hsame := hlast d ((hbefore.registered_iff d).mpr hd)
          rw [hsame, decide_eq_false (not_not.mpr rfl), Bool.and_false]
        · have hd : connectedSince d pre = false := Bool.not_eq_true _ ▸ hd
          rw [hd, Bool.false_and]
      have hempty : qmNoOfAppsRunning { after appStep qminit pre with qmappInfo := apps } = 0 :=
        (Table.running_eq_zero_iff hafter).mpr hnone
      rw [appStep, heq, if_pos hempty, hafter.eq_replicate hnone]
    · have hbefore := htable _ _ hsplit
      obtain ⟨apps, hafter, heq⟩ := qmdisconnect_registered hbefore hc
      have hrunning :
          qmNoOfAppsRunning { after appStep qminit pre with qmappInfo := apps } ≠ 0 := by
        intro hempty
        have hd := (hbefore.registered_iff d).mp hd
        have hgone := (Table.running_eq_zero_iff hafter).mp hempty d
        rw [hd, Bool.true_and, decide_eq_false_iff_not, not_not] at hgone
        exact hne (QmChannel.eq_of_channel hgone).symm
      exact ⟨apps, by rw [appStep, heq, if_neg hrunning]⟩

theorem ofNat_ne_unknown {k : ℕ} (h : k < 255) : UInt8.ofNat k ≠ qmAppChannelUnknown := by
  intro heq
  have hunknown : qmAppChannelUnknown.toNat = 255 := rfl
  have hnat := congrArg UInt8.toNat heq
  rw [UInt8.toNat_ofNat', hunknown] at hnat
  omega

/-- The channel with a number. -/
def numbered (k : ℕ) (h : k < 255) : QmChannel := ⟨UInt8.ofNat k, ofNat_ne_unknown h⟩

/-- Four applications connect. -/
def fourConnects : List AppCall :=
  [.connect (numbered 0 (Nat.le_of_ble_eq_true rfl)),
    .connect (numbered 1 (Nat.le_of_ble_eq_true rfl)),
    .connect (numbered 2 (Nat.le_of_ble_eq_true rfl)),
    .connect (numbered 3 (Nat.le_of_ble_eq_true rfl))]

/-- A client is opened and a channel without an entry is disconnected. -/
def strayDisconnect : List AppCall :=
  [.rest (opened qminit (.wds 0)), .disconnect (numbered 0 (Nat.le_of_ble_eq_true rfl))]

/-- The fourth application is dropped without a report, and a channel that is not in the empty table
closes a client. -/
theorem not_tracksApplications :
    ¬ TracksApplications fourConnects ∧ ¬ TracksApplications strayDisconnect := by
  constructor
  · intro h
    rcases h.reported (fourConnects.take 3) _ [] rfl with hregistered | hreported
    · exact absurd hregistered (by decide)
    · exact hreported rfl
  · intro h
    have hunregistered : ¬ Registered (after appStep qminit (strayDisconnect.take 1))
        (numbered 0 (Nat.le_of_ble_eq_true rfl)) := by decide
    have hsame := h.unknown (strayDisconnect.take 1) _ [] rfl hunregistered
    have hnone : qmNoOfAppsRunning (after appStep qminit (strayDisconnect.take 1)) = 0 := by decide
    rw [appStep, qmdisconnect_unknown hunregistered, if_pos hnone, tearDown_eq_self_iff] at hsame
    have hclosed := hsame.clients (.wds 0) (List.mem_cons_self ..)
    exact absurd hclosed (by decide)

end Qm

end SierraSdk
