/-
**Runs of the server.**

* `boot` — the server before its first message, with the log channel.
* `Event` — a completed message, a client that was introduced, or time that passes.
* `Run allowed` — the states reached from `boot` by events that are allowed where they happen.
* `run_consistent` — membership stays consistent in every run in which no member of a channel gains
  or loses the stealth mode.
* `run_noGhost` — the lists of channels agree and hold no ghosts in every run in which every NJOIN
  inhabits what it opens or overrides, and no MODE takes the last bit that keeps a channel without
  members.
-/

import PtlinkIrcd.Channel.ModeSigns
import PtlinkIrcd.User.Stealth

namespace PtlinkIrcd

namespace Ircd

/-! ### The server starts -/

def bootClient (name : Text) : Client :=
  { Client.zero with
    name := name, status := .server, link := some me, servptr := some me
    serv := some ⟨some name, [], []⟩ }

def blank (conf : Conf) (now : Int) (name : Text) : Ircd where
  conf := conf
  now := now
  secure_mode := false
  services_on := false
  client := Function.update (fun _ => .zero) me (bootClient name)
  chan _ := .zero [] 0
  nextChan := 0
  clientTable := Lib.ChainTable.empty.add (hashNickName name) me
  channelTable := Lib.ChainTable.empty
  GlobalClientList := [me]
  channel := []
  countChan := 0
  count := ⟨0, 0, 0, 0⟩
  whowas := []
  sent := []

def init_local_log_channels (s : Ircd) : Ircd :=
  let made := s.get_channel_create me "&Connects"
  let mode := (made.1.chan made.2).mode
  made.1.setMode made.2 { mode with
    mode := mode.mode ||| (MODE_LOG ||| MODE_OPERONLY ||| MODE_SECRET ||| MODE_NOPRIVMSGS) }

def boot (conf : Conf) (now : Int) (name : Text) : Ircd :=
  (blank conf now name).init_local_log_channels

/-! ### Clients that come -/

/-- `add_client_to_llist` on the list of the client's server. -/
def linkServ (s : Ircd) (sptr : ClientId) : Ircd :=
  match (s.client sptr).servptr with
  | none => s
  | some servptr =>
    match (s.client servptr).serv with
    | none => s
    | some serv =>
      s.setClient servptr
        { s.client servptr with
          serv := some (if (s.client sptr).isServer then
            { serv with servers := sptr :: serv.servers }
          else { serv with users := sptr :: serv.users }) }

/-- A user or a server whose registration or introduction is complete takes a free block. -/
def introduce (s : Ircd) (u : ClientId) (x : Client) : Ircd :=
  if s.client u = .zero ∧ x.isFresh then
    let s := (s.setClient u x).linkServ u
    { s with
      services_on := s.services_on || (x.isServer && x.isService)
      GlobalClientList := u :: s.GlobalClientList
      clientTable := s.clientTable.add (hashNickName x.name) u }
  else s

end Ircd

/-- What happens to the server. -/
inductive Event
  | introduce (u : ClientId) (x : Client)
  | time (now : Int)
  | join (cptr sptr : ClientId) (parv : List Text)
  | part (cptr sptr : ClientId) (parv : List Text)
  | kick (cptr sptr : ClientId) (parv : List Text)
  | njoin (cptr sptr : ClientId) (parv : List Text)
  | mode (cptr sptr : ClientId) (parv : List Text)
  | exit (cptr : Option ClientId) (sptr source : ClientId) (comment : Text)
  | umode (cptr sptr : ClientId) (parv : List Text)
  | svsmode (cptr sptr : ClientId) (parv : List Text)

namespace Ircd

def after (s : Ircd) : Event → Ircd
  | .introduce u x => s.introduce u x
  | .time now => { s with now := now }
  | .join cptr sptr parv => s.m_join cptr sptr parv
  | .part cptr sptr parv => s.m_part cptr sptr parv
  | .kick cptr sptr parv => s.m_kick cptr sptr parv
  | .njoin cptr sptr parv => s.m_njoin cptr sptr parv
  | .mode cptr sptr parv => s.m_mode cptr sptr parv
  | .exit cptr sptr source comment => s.exit_client cptr sptr source comment
  | .umode cptr sptr parv => s.user_mode cptr sptr parv
  | .svsmode cptr sptr parv => s.m_svsmode cptr sptr parv

/-- **The states reached by events that are allowed where they happen.** -/
inductive Run (allowed : Ircd → Event → Prop) : Ircd → Prop
  | boot (conf : Conf) (now : Int) (name : Text) : Run allowed (boot conf now name)
  | step {s : Ircd} (run : Run allowed s) {event : Event} (ok : allowed s event) :
      Run allowed (s.after event)

/-! ### The first state -/

theorem Sound.blank {counted : Prop} (conf : Conf) (now : Int) (name : Text) :
    (blank conf now name).Sound counted := by
  have users : ∀ u, ((Ircd.blank conf now name).client u).user = none := by
    intro u
    show (Function.update (fun _ => Client.zero) me (bootClient name) u).user = none
    by_cases self : u = me
    · rw [self, Function.update_self]
      rfl
    · rw [Function.update_of_ne self]
      rfl
  have channels : ∀ u, ((Ircd.blank conf now name).client u).channels = [] := by
    intro u
    unfold Client.channels
    rw [users]
    rfl
  refine ⟨⟨⟨?_, fun u => ?_, fun _ _ => rfl⟩, fun _ => rfl⟩,
    ⟨List.nodup_nil, Lib.ChainTable.Holds.empty, rfl, fun c member => absurd member List.not_mem_nil,
      fun _ _ => rfl⟩, fun u has => ?_⟩
  · rw [funext channels]
    exact Lib.Incident.empty
  · rw [channels]
    unfold Client.joined
    rw [users]
    rfl
  · rw [users] at has
    exact absurd has (by simp)

theorem boot_still (conf : Conf) (now : Int) (name : Text) :
    StillBut 0 ((blank conf now name).createChannel "&Connects").1 (boot conf now name) :=
  StillBut.setMode ..

/-- **The first state is sound and holds no ghost**: the log channel stays without members. -/
theorem boot_sound {counted : Prop} (conf : Conf) (now : Int) (name : Text) :
    (boot conf now name).Sound counted ∧ (boot conf now name).NoGhost := by
  have still := boot_still conf now name
  refine ⟨((Sound.blank conf now name).createChannel _).quiet still.toQuiet, fun c member => ?_⟩
  have only : c = 0 := by
    rw [still.channel] at member
    exact List.mem_singleton.mp member
  refine .inr ?_
  rw [only]
  show keeps conf (0 ||| (MODE_LOG ||| MODE_OPERONLY ||| MODE_SECRET ||| MODE_NOPRIVMSGS)) = true
  rw [keeps_or]
  unfold keeps
  simp [show Flags.has (MODE_LOG ||| MODE_OPERONLY ||| MODE_SECRET ||| MODE_NOPRIVMSGS)
    (MODE_ADMINONLY ||| MODE_OPERONLY ||| MODE_LOG) = true by decide]

/-! ### One event -/

theorem Still.linkServ (s : Ircd) (u : ClientId) : Still s (s.linkServ u) := by
  unfold Ircd.linkServ
  split
  · exact .refl s
  · split
    · exact .refl s
    · exact .setClient rfl rfl rfl rfl

theorem Keeps.introduce (s : Ircd) (u : ClientId) (x : Client) : Keeps s (s.introduce u x) := by
  unfold Ircd.introduce
  split
  · rename_i free
    have off : (s.client u).channels = [] := by
      rw [free.1]
      rfl
    have linked := Still.linkServ (s.setClient u x) u
    exact (Keeps.setFresh (fun _ => off) free.2).trans ((Keeps.still linked).trans
      (.still (.same rfl rfl rfl rfl rfl rfl rfl)))
  · exact .refl s

theorem Keeps.time (s : Ircd) (now : Int) : Keeps s { s with now := now } :=
  .still (.same rfl rfl rfl rfl rfl rfl rfl)

/-- **An event changes the stealth mode of no member of a channel.** -/
def LeavesStealth (s : Ircd) : Event → Prop
  | .umode cptr sptr parv => s.find_person (parv.getD 1 []) = some sptr →
      s.KeepsStealth sptr (s.client cptr).isServer (parv.drop 2).flatten
  | .mode cptr sptr parv => s.find_person (parv.getD 1 []) = some sptr →
      s.KeepsStealth sptr (s.client cptr).isServer (parv.drop 2).flatten
  | .svsmode cptr sptr parv => (s.client cptr).isServer → (s.client sptr).isService →
      ∀ u, s.find_person ((svsParams parv).getD 1 []) = some u → (s.client u).myClient →
        (atol ((svsParams parv).getD 2 []) = 0 ∨
          atol ((svsParams parv).getD 2 []) = (s.client u).tsinfo) →
        s.KeepsStealth u true ((svsParams parv).getD 3 [])
  | _ => True

/-- A MODE finds its channel with members, or leaves it a bit under which it stays. -/
def ModeSpares (s : Ircd) (cptr sptr : ClientId) (parv : List Text) : Prop :=
  ∀ chptr, s.hash_find_channel (parv.getD 1 []) = some chptr →
    (s.chan chptr).members ≠ [] ∨
      keeps s.conf ((s.chan chptr).mode.mode &&&
        ~~~s.modeTaken cptr sptr chptr (parv.drop 2)) = true

/-- **An event whose NJOIN inhabits what it opens or overrides, and whose MODE spares what has no
members.** -/
def LeavesNoGhost (s : Ircd) : Event → Prop
  | .njoin cptr sptr parv => s.SjoinInhabits cptr sptr parv
  | .mode cptr sptr parv => s.ModeSpares cptr sptr parv
  | _ => True

/-- **MODE keeps the lists of members.** -/
theorem Sound.m_mode {s : Ircd} {counted : Prop} {cptr sptr : ClientId} {parv : List Text}
    (counts : counted → s.LeavesStealth (.mode cptr sptr parv)) (sound : s.Sound counted) :
    (s.m_mode cptr sptr parv).Sound counted := by
  have user := (KeepsIf.user_mode s cptr sptr parv).sound counts sound
  unfold Ircd.m_mode
  simp only []
  split
  · exact sound.quiet (.send ..)
  split
  · exact user
  split
  · exact sound.quiet (.send ..)
  split
  · exact user
  split
  · exact sound.quiet ((Quiet.send ..).trans (.send ..))
  · exact sound.quiet (set_channel_mode_frame ..).toQuiet

/-- **A MODE leaves no ghost** when it spares the channels without members. -/
theorem NoGhost.m_mode {s : Ircd} {cptr sptr : ClientId} {parv : List Text} (sound : s.Sound False)
    (noGhost : s.NoGhost) (spares : s.ModeSpares cptr sptr parv) :
    (s.m_mode cptr sptr parv).NoGhost := by
  have user := (KeepsIf.user_mode s cptr sptr parv).noGhost sound noGhost
  unfold Ircd.m_mode
  simp only []
  split
  · exact noGhost.still (.send ..)
  split
  · exact user
  split
  · exact noGhost.still (.send ..)
  split
  · exact user
  rename_i chptr found
  split
  · exact noGhost.still ((Still.send ..).trans (.send ..))
  · have frame := set_channel_mode_frame s cptr sptr chptr (parv.drop 2)
    intro c member
    rw [frame.channel] at member
    by_cases here : c = chptr
    · rw [here]
      rcases spares chptr found with some_ | kept
      · refine .inl ?_
        rw [Ne, members_eq_nil, frame.members, ← members_eq_nil]
        exact some_
      · refine .inr ?_
        unfold Channel.kept
        rw [frame.conf]
        exact set_channel_mode_kept kept
    · exact (noGhost c member).congr (by rw [frame.chan c here]) (by rw [frame.chan c here]) frame.conf

theorem keepsIf_after {s : Ircd} {event : Event}
    (noNjoin : ∀ cptr sptr parv, event ≠ .njoin cptr sptr parv)
    (noMode : ∀ cptr sptr parv, event ≠ .mode cptr sptr parv) :
    KeepsIf (s.LeavesStealth event) s (s.after event) := by
  cases event with
  | introduce u x => exact .always (.introduce ..)
  | time now => exact .always (.time ..)
  | join cptr sptr parv => exact .always (.safe (.m_join ..))
  | part cptr sptr parv => exact .always (.safe (.m_part ..))
  | kick cptr sptr parv => exact .always (.safe (.m_kick ..))
  | njoin cptr sptr parv => exact absurd rfl (noNjoin cptr sptr parv)
  | mode cptr sptr parv => exact absurd rfl (noMode cptr sptr parv)
  | exit cptr sptr source comment => exact .always (.exit_client ..)
  | umode cptr sptr parv => exact .user_mode ..
  | svsmode cptr sptr parv => exact .m_svsmode ..

/-- **One event keeps membership consistent.** -/
theorem Sound.after {s : Ircd} {counted : Prop} {event : Event}
    (counts : counted → s.LeavesStealth event) (sound : s.Sound counted) :
    (s.after event).Sound counted := by
  cases event with
  | njoin cptr sptr parv => exact sound.m_sjoin cptr sptr parv
  | mode cptr sptr parv => exact Sound.m_mode counts sound
  | _ => exact (keepsIf_after (by simp) (by simp)).sound counts sound

/-- **One event leaves no ghost.** -/
theorem NoGhost.after {s : Ircd} {event : Event} (sound : s.Sound False) (noGhost : s.NoGhost)
    (leaves : s.LeavesNoGhost event) : (s.after event).NoGhost := by
  cases event with
  | njoin cptr sptr parv => exact NoGhost.m_sjoin sound noGhost leaves
  | mode cptr sptr parv => exact NoGhost.m_mode sound noGhost leaves
  | _ => exact (keepsIf_after (by simp) (by simp)).noGhost sound noGhost

/-! ### Whole runs -/

def sampleConf : Conf where
  HALFOPS := false
  RestrictedChans := false
  RestrictedChansMsg := []
  MaxChansPerUser := 10
  MaxChansPerRegUser := 0
  OperCanAlwaysJoin := false
  OperByPass := none
  OperKickProtection := false
  SecureModes := false
  HostSpoofing := false
  SPAMNUM := 0
  SPAMTIME := 0
  DefaultChanMode := "+nt"
  new_cmodes := MODE_NOPRIVMSGS ||| MODE_TOPICLIMIT
  OverrideNetsplitMessage := none
  spoofed := id

def sampleServer : Client :=
  { Client.zero with
    name := "hub", status := .server, link := some 1, servptr := some me
    serv := some ⟨some "home", [], []⟩, local_flag := true }

def sampleUser : Client :=
  { Client.zero with
    name := "ann", status := .client, link := some 1, servptr := some 1
    user := some ⟨[], [], 0, "hub"⟩ }

def sampleKnown : Ircd :=
  ((boot sampleConf 1000 "home").after (.introduce 1 sampleServer)).after (.introduce 2 sampleUser)

def sampleJoin : Ircd := sampleKnown.after (.join 1 2 ["ann", "#c"])

def sampleLocal : Client :=
  { Client.zero with
    name := "bob", username := "b", host := "b.org", realhost := "b.org", status := .client
    link := some 3, servptr := some me, user := some ⟨[], [], 0, "home"⟩, local_flag := true }

/-- The two users on a channel of which the remote one is admin and operator. -/
def sampleCrowd : Ircd :=
  ((sampleKnown.after (.njoin 1 1 ["hub", "1000", "#c", "+nt", ".@ann"])).after
    (.introduce 3 sampleLocal)).after (.join 3 3 ["bob", "#c"])

/-- **The invariants hold in every run**, the count of stealth members in those that leave their mode
alone. -/
theorem Run.sound {s : Ircd} {counted : Prop} {allowed : Ircd → Event → Prop}
    (counts : counted → ∀ s event, allowed s event → s.LeavesStealth event) (run : Run allowed s) :
    s.Sound counted := by
  induction run with
  | boot conf now name => exact (boot_sound conf now name).1
  | step run ok ih => exact ih.after fun counted => counts counted _ _ ok

/-- **Membership is consistent in every state of a run** in which no member of a channel gains or
loses the stealth mode. -/
theorem run_consistent {s : Ircd} (run : Run LeavesStealth s) : s.Consistent :=
  (run.sound fun (_ : True) _ _ leaves => leaves).enrolled.consistent

/-- A user of a linked server joins, and becomes invisible. -/
theorem run_consistent_invisible :
    (sampleJoin.after (.umode 1 2 ["ann", "ann", "+i"])).Consistent := by
  refine run_consistent (.step (.step (.step (.step (.boot sampleConf 1000 "home") ?_) ?_) ?_) ?_)
  · trivial
  · trivial
  · trivial
  · intro _
    exact .inr (by decide)

/-- A user of a linked server joins, and then turns the stealth mode on. -/
theorem not_run_consistent : ¬ ∀ s, Run (fun _ _ => True) s → s.Consistent := by
  intro all
  have run : Run (fun _ _ => True) (sampleJoin.after (.umode 1 2 ["ann", "ann", "+S"])) :=
    .step (.step (.step (.step (.boot sampleConf 1000 "home") trivial) trivial) trivial) trivial
  have counted := (all _ run).iusers 1
  exact absurd counted (by decide +kernel)

/-- **No ghost channels.** In every state of a run whose NJOINs inhabit what they open or override and
whose MODEs spare the channels without members, every listed channel has a member or is kept, and list,
hash table and count agree. -/
theorem run_noGhost {s : Ircd} (run : Run LeavesNoGhost s) : s.NoGhost ∧ s.Listed := by
  have both : s.Sound False ∧ s.NoGhost := by
    induction run with
    | boot conf now name => exact boot_sound conf now name
    | step run ok ih => exact ⟨ih.1.after False.elim, NoGhost.after ih.1 ih.2 ok⟩
  exact ⟨both.2, both.1.listed⟩

def sampleBrought : Ircd := sampleKnown.after (.njoin 1 1 ["hub", "900", "#c", "+ntO", "@ann"])

/-- That user becomes a stealth user, and the channel is opened to others. -/
theorem run_noGhost_njoin :
    ((sampleBrought.after (.umode 1 2 ["ann", "ann", "+S"])).after
      (.mode 1 1 ["hub", "#c", "-O"])).NoGhost ∧
    ((sampleBrought.after (.umode 1 2 ["ann", "ann", "+S"])).after
      (.mode 1 1 ["hub", "#c", "-O"])).Listed := by
  refine run_noGhost (.step (.step (.step (.step (.step (.boot sampleConf 1000 "home") ?_) ?_) ?_) ?_) ?_)
  · trivial
  · trivial
  · intro mode args reads
    have known : sjoinRead (sampleKnown.client 1) ["hub", "900", "#c", "+ntO", "@ann"] =
        some ((⟨MODE_NOPRIVMSGS ||| MODE_TOPICLIMIT ||| MODE_OPERONLY, 0, [], 0, 0⟩ : Mode),
          (["@ann"] : List Text)) := by
      decide +kernel
    cases Option.some.inj (known.symm.trans reads)
    exact .inl (by decide +kernel)
  · trivial
  · intro chptr found
    have there : (sampleBrought.after (.umode 1 2 ["ann", "ann", "+S"])).hash_find_channel "#c" =
        some 1 := by
      decide +kernel
    cases Option.some.inj (there.symm.trans found)
    exact .inl (by decide +kernel)

/-- An NJOIN opens a channel for a nick that is not known. -/
theorem not_run_noGhost : ¬ ∀ s, Run (fun _ _ => True) s → s.NoGhost ∧ s.Listed := by
  intro all
  have run : Run (fun _ _ => True)
      (((boot sampleConf 1000 "home").after (.introduce 1 sampleServer)).after
        (.njoin 1 1 ["hub", "900", "#c", "+nt", "ghost"])) :=
    .step (.step (.boot sampleConf 1000 "home") trivial) trivial
  have inhabited := (all _ run).1 1 (by decide +kernel)
  rcases inhabited with some_ | kept
  · exact some_ (by decide +kernel)
  · exact absurd kept (by decide +kernel)

end Ircd

end PtlinkIrcd
