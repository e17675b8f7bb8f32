import BreezeCore.Device.Scan
import BreezeCore.Lib.Keyed
import BreezeCore.Proto.DiscoverReply

/-!
# What a scan finds

A scan says hello to every host of a subnet, on both ports, and listens to what comes back.  A
unit may answer more than once, the answers come in any order, and other things answer too.

* `listen_eq` — nothing that arrives makes the scan panic, and what is kept is the first
  answer of each id and the first refusal of each address;
* `scan_report` — the report, in terms of what arrived;
* `scan_finds` — so the units that answered are found, each once, whatever the order.
-/

namespace BreezeDevice

open Fallible Text Net Bytes Security Discover Keyed

/-- Units listen on both of these. -/
def DISCOVERY_PORTS : List Nat := [6445, 20086]

/-- Where a hello to everybody goes. -/
def BROADCAST : Ipv4Addr := ⟨255, 255, 255, 255⟩

/-- A datagram longer than this is cut. -/
def BUFFER : Nat := 2048

/-- Where a hello goes. -/
structure Hello where
  target : Ipv4Addr
  port : Nat
  deriving DecidableEq, Repr

/-- What a read of the socket comes to.  Nothing came in time, or a host refused an earlier
probe. -/
inductive Incoming where
  | datagram (source : IpAddr) (bytes : Octets)
  | nothing
  deriving DecidableEq, Repr

/-- The network as a scan meets it: whether there is a socket, which hellos can be sent, and
what the reads come to, until the time is over. -/
structure Network where
  socket : Except Str Unit := .ok ()
  sends : Hello → Bool := fun _ => true
  received : List Incoming

/-- Why there is no report. -/
inductive ScanProblem where
  | io (e : Str)
  | refused (e : ScanError)
  deriving DecidableEq, Repr

/-- What a scan reports. -/
structure ScanReport where
  /-- One entry for each unit, in the order of their ids. -/
  found : List Discovered
  /-- Replies that could not be parsed, with the reason. -/
  unparseable : List (Ipv4Addr × Str)
  probesSent : Nat
  broadcastSent : Bool
  swept : Option Str
  deriving DecidableEq, Repr

/-- The text of an error.  How a text is quoted is given. -/
def errorText (quoted : Str → Str) : DiscoverError → Str
  | .unknownVersion first second =>
      "reply starts 0x".toList ++ (hexLower [first, second]).map Char.toUpper ++
        ", no known version".toList
  | .v1Unsupported => "V1 device: XML discovery is not supported".toList
  | .truncated n => "reply of ".toList ++ showNat n ++ " bytes is too short".toList
  | .undecryptable => "reply payload would not decrypt".toList
  | .noDeviceType ssid => "cannot read a device type from SSID ".toList ++ quoted ssid

/-! ## Listening -/

/-- What has been heard so far. -/
structure Heard where
  seen : List Discovered := []
  unparseable : List (Ipv4Addr × Str) := []
  deriving DecidableEq, Repr

variable (P : Primitives) (quoted : Str → Str)

/-- One read.  A unit that answers again is kept as it was, and an address is complained about
once. -/
def receive (heard : Heard) : Incoming → Exec ScanProblem Heard
  | .nothing | .datagram (.v6 _) _ => pure heard
  | .datagram (.v4 src) bytes =>
      match parse P src (bytes.take BUFFER) with
      | .ok found => pure { heard with seen := orInsert Discovered.id found heard.seen }
      | .error (.error e) =>
          pure { heard with
            unparseable := pushNew Prod.fst (src, errorText quoted e) heard.unparseable }
      | .error .panic => crash

/-- All that arrives, one after the other. -/
def listen (received : List Incoming) : Exec ScanProblem Heard :=
  received.foldlM (receive P quoted) {}

/-! ## The scan -/

/-- The probes that went out: to each host, on both ports. -/
def probes (hosts : List Ipv4Addr) (sends : Hello → Bool) : List Hello :=
  (DISCOVERY_PORTS.flatMap fun port => hosts.map (⟨·, port⟩)).filter sends

/-- Probe, then listen. What was heard makes the report, together with how many probes went out
and whether the broadcast did. -/
def scanTargets (hosts : List Ipv4Addr) (swept : Option Str) (broadcast : Bool)
    (network : Network) : Exec ScanProblem ScanReport :=
  match network.socket with
  | .error e => fail (.io e)
  | .ok () => do
      let heard ← listen P quoted network.received
      pure {
        found := heard.seen
        unparseable := heard.unparseable
        -- Counted on 32 bits.
        probesSent := (probes hosts network.sends).length % 2 ^ 32
        broadcastSent :=
          broadcast && DISCOVERY_PORTS.any fun port => network.sends ⟨BROADCAST, port⟩
        swept := swept }

/-- Sweep an explicit subnet, without a broadcast. -/
def scanSubnet (cidr : Str) (network : Network) : Exec ScanProblem ScanReport := do
  let (hosts, label) ← mapFail .refused (parseCidr cidr)
  scanTargets P quoted hosts (some label) false network

/-- Every host address in the `/24` around an address. -/
def hostsOf24 (ip : Ipv4Addr) : List Ipv4Addr :=
  (List.range 254).map fun d => ⟨ip.a, ip.b, ip.c, UInt8.ofNat (d + 1)⟩

/-- The server's own private address: the first, of the addresses it would send from. -/
def localIpv4 (locals : List (Option IpAddr)) : Option Ipv4Addr :=
  locals.findSome? fun
    | some (.v4 ip) => if ip.isPrivate && !ip.isLoopback then some ip else none
    | _ => none

/-- Sweep the server's own subnet, and broadcast. -/
def scan (locals : List (Option IpAddr)) (network : Network) : Exec ScanProblem ScanReport :=
  let ip := localIpv4 locals
  scanTargets P quoted (ip.elim [] hostsOf24) (ip.map fun ip => ip.toText ++ "/24".toList) true
    network

/-! ## What is kept -/

/-- The unit that a read tells of. -/
def Incoming.unit : Incoming → Option Discovered
  | .datagram (.v4 src) bytes => (parse P src (bytes.take BUFFER)).toOption
  | _ => none

/-- The address and the reason, where a read is no reply that can be parsed. -/
def Incoming.refusal : Incoming → Option (Ipv4Addr × Str)
  | .datagram (.v4 src) bytes =>
      match parse P src (bytes.take BUFFER) with
      | .error (.error e) => some (src, errorText quoted e)
      | _ => none
  | _ => none

variable {P quoted}

/-- **One read.** -/
theorem receive_eq (heard : Heard) (r : Incoming) :
    receive P quoted heard r = .ok
      ⟨(r.unit P).elim heard.seen (orInsert Discovered.id · heard.seen),
        (r.refusal P quoted).elim heard.unparseable (pushNew Prod.fst · heard.unparseable)⟩ := by
  match r with
  | .nothing | .datagram (.v6 _) _ => rfl
  | .datagram (.v4 src) bytes =>
      have hreturns := returns_parse P src (bytes.take BUFFER)
      rw [receive, Incoming.unit, Incoming.refusal]
      cases hparse : parse P src (bytes.take BUFFER) with
      | ok found => rfl
      | error fault =>
          cases fault with
          | error e => rfl
          | panic =>
              rw [hparse] at hreturns
              exact hreturns.elim

/-- **Listening** never panics, and keeps the first of each id and of each address. -/
theorem listen_eq (received : List Incoming) :
    listen P quoted received =
      .ok ⟨collect Discovered.id (received.filterMap (Incoming.unit P)),
        firsts Prod.fst (received.filterMap (Incoming.refusal P quoted))⟩ := by
  unfold listen
  induction received using List.reverseRecOn with
  | nil => rfl
  | append_singleton received r ih =>
      rw [List.foldlM_append, ih, ok_bind, List.foldlM_cons, receive_eq, ok_bind,
        collect_filterMap_concat, firsts_filterMap_concat]
      rfl

/-! ## The report -/

variable {hosts : List Ipv4Addr} {swept : Option Str} {broadcast : Bool} {network : Network}

/-- What is found and what is complained about, as a whole. -/
theorem scanTargets_eq (P : Primitives) (quoted : Str → Str) (hosts : List Ipv4Addr)
    (swept : Option Str) (broadcast : Bool)
    (hsocket : network.socket = .ok ()) :
    ∃ report, scanTargets P quoted hosts swept broadcast network = .ok report ∧
      report.found = collect Discovered.id (network.received.filterMap (Incoming.unit P)) ∧
      report.unparseable =
        firsts Prod.fst (network.received.filterMap (Incoming.refusal P quoted)) := by
  unfold scanTargets
  rw [hsocket]
  dsimp only
  rw [listen_eq, ok_bind]
  exact ⟨_, rfl, rfl, rfl⟩

/-- A read tells of a unit when it is a datagram that can be parsed, cut to the buffer. -/
theorem unit_eq_some {r : Incoming} {d : Discovered} : r.unit P = some d ↔
    ∃ src bytes, r = .datagram (.v4 src) bytes ∧ parse P src (bytes.take BUFFER) = .ok d := by
  match r with
  | .nothing => exact ⟨nofun, nofun⟩
  | .datagram (.v6 _) _ => exact ⟨nofun, nofun⟩
  | .datagram (.v4 src) bytes =>
      have hok : (parse P src (bytes.take BUFFER)).toOption = some d ↔
          parse P src (bytes.take BUFFER) = .ok d := by
        cases parse P src (bytes.take BUFFER) with
        | ok found => exact ⟨fun h => congrArg _ (Option.some.inj h),
            fun h => congrArg _ (Except.ok.inj h)⟩
        | error _ => exact ⟨nofun, nofun⟩
      refine hok.trans ⟨fun h => ⟨src, bytes, rfl, h⟩, ?_⟩
      rintro ⟨_, _, ⟨⟩, h⟩
      exact h

/-- And of a complaint when it is one that cannot. -/
theorem refusal_eq_some {r : Incoming} {src : Ipv4Addr} {reason : Str} :
    r.refusal P quoted = some (src, reason) ↔ ∃ bytes e, r = .datagram (.v4 src) bytes ∧
      parse P src (bytes.take BUFFER) = .error (.error e) ∧ reason = errorText quoted e := by
  match r with
  | .nothing => exact ⟨nofun, nofun⟩
  | .datagram (.v6 _) _ => exact ⟨nofun, nofun⟩
  | .datagram (.v4 src') bytes =>
      rw [Incoming.refusal]
      constructor
      · intro h
        split at h
        next e he =>
          obtain ⟨rfl, rfl⟩ := Prod.mk.inj (Option.some.inj h)
          exact ⟨bytes, e, rfl, he, rfl⟩
        next => cases h
      · rintro ⟨_, e, ⟨⟩, he, rfl⟩
        rw [he]

/-- **Nothing that arrives panics.** -/
theorem scanTargets_returns : Returns (scanTargets P quoted hosts swept broadcast network) := by
  unfold scanTargets
  split
  · trivial
  · rw [listen_eq]
    trivial

/-- So a scan of a subnet does not panic, whatever the subnet is written like. -/
theorem scanSubnet_returns (cidr : Str) : Returns (scanSubnet P quoted cidr network) :=
  returns_bind ((returns_mapFail _ _).mpr (parseCidr_returns cidr)) fun _ _ => scanTargets_returns

/-- A scan of the server's own subnet returns, whatever the network does. -/
theorem scan_returns (locals : List (Option IpAddr)) : Returns (scan P quoted locals network) :=
  scanTargets_returns

/-- **The report**, in terms of what arrived: of each id the first reply that can be parsed, in
the order of the ids, and of each address the first that cannot. -/
theorem scan_report (P : Primitives) (quoted : Str → Str) (hosts : List Ipv4Addr)
    (swept : Option Str) (broadcast : Bool)
    (hsocket : network.socket = .ok ()) :
    ∃ report, scanTargets P quoted hosts swept broadcast network = .ok report ∧
      report.found.Pairwise (fun d e => d.id < e.id) ∧
      (∀ d, d ∈ report.found ↔ ∃ before src bytes after,
        network.received = before ++ .datagram (.v4 src) bytes :: after ∧
          parse P src (bytes.take BUFFER) = .ok d ∧
          ∀ src' bytes' d', .datagram (.v4 src') bytes' ∈ before →
            parse P src' (bytes'.take BUFFER) = .ok d' → d'.id ≠ d.id) ∧
      (report.unparseable.map Prod.fst).Nodup ∧
      ∀ src reason, (src, reason) ∈ report.unparseable ↔ ∃ before bytes after e,
        network.received = before ++ .datagram (.v4 src) bytes :: after ∧
          parse P src (bytes.take BUFFER) = .error (.error e) ∧ reason = errorText quoted e ∧
          ∀ bytes' e', .datagram (.v4 src) bytes' ∈ before →
            parse P src (bytes'.take BUFFER) ≠ .error (.error e') := by
  obtain ⟨report, hreport, hfound, hunparseable⟩ :=
    scanTargets_eq P quoted hosts swept broadcast hsocket
  refine ⟨report, hreport, ?_, fun d => ?_, ?_, fun src reason => ?_⟩
  · rw [hfound]
    exact ascending_collect _
  · rw [hfound, mem_collect, first_filterMap]
    constructor
    · rintro ⟨before, r, after, heq, hr, hbefore⟩
      obtain ⟨src, bytes, rfl, hparse⟩ := unit_eq_some.mp hr
      refine ⟨before, src, bytes, after, heq, hparse, fun src' bytes' d' hmem hparse' => ?_⟩
      exact hbefore _ hmem d' (unit_eq_some.mpr ⟨src', bytes', rfl, hparse'⟩)
    · rintro ⟨before, src, bytes, after, heq, hparse, hbefore⟩
      refine ⟨before, _, after, heq, unit_eq_some.mpr ⟨src, bytes, rfl, hparse⟩, ?_⟩
      intro r hmem d' hr
      obtain ⟨src', bytes', rfl, hparse'⟩ := unit_eq_some.mp hr
      exact hbefore src' bytes' d' hmem hparse'
  · rw [hunparseable]
    exact firsts_keys _
  · rw [hunparseable, mem_firsts, first_filterMap]
    constructor
    · rintro ⟨before, r, after, heq, hr, hbefore⟩
      obtain ⟨bytes, e, rfl, hparse, rfl⟩ := refusal_eq_some.mp hr
      refine ⟨before, bytes, after, e, heq, hparse, rfl, fun bytes' e' hmem hparse' => ?_⟩
      exact hbefore _ hmem (src, errorText quoted e')
        (refusal_eq_some.mpr ⟨bytes', e', rfl, hparse', rfl⟩) rfl
    · rintro ⟨before, bytes, after, e, heq, hparse, rfl, hbefore⟩
      refine ⟨before, _, after, heq, refusal_eq_some.mpr ⟨bytes, e, rfl, hparse, rfl⟩, ?_⟩
      rintro r hmem ⟨src', reason'⟩ hr rfl
      obtain ⟨bytes', e', rfl, hparse', -⟩ := refusal_eq_some.mp hr
      exact hbefore bytes' e' hmem hparse'

/-- A router that answers with a page. -/
def routerOnly : Network where
  received := [.nothing, .datagram (.v4 ⟨192, 168, 1, 1⟩) [0x3C]]

/-- The router's answer is complained about. -/
theorem scan_report_router : ∃ report,
    scanTargets unitPrimitives id [] none false routerOnly = .ok report ∧
      (⟨192, 168, 1, 1⟩, "V1 device: XML discovery is not supported".toList) ∈
        report.unparseable := by
  obtain ⟨report, hreport, -, -, -, hunparseable⟩ :=
    scan_report unitPrimitives id [] none false (show routerOnly.socket = .ok () from rfl)
  refine ⟨report, hreport, (hunparseable _ _).mpr ?_⟩
  exact ⟨[.nothing], [0x3C], [], .v1Unsupported, rfl, rfl, rfl, by simp⟩

/-! ## The units -/

/-- A unit on the network: what it says of itself, where it answers from, and in which
generation of the protocol. -/
structure OnNetwork where
  announcement : Announcement
  source : Ipv4Addr
  version : Version

/-- What a scan finds of it. -/
def OnNetwork.discovered (u : OnNetwork) : Discovered :=
  u.announcement.discovered u.source u.version

/-- A reply of the unit, with whatever bytes where nothing is said. -/
inductive OnNetwork.Replies (P : Primitives) (u : OnNetwork) : Octets → Prop
  | plain {reply : Octets} (filler : Filler) (hversion : u.version = .v2)
      (hreply : u.announcement.replyV2 P filler = (.ok reply : Exec DiscoverError Octets)) :
      Replies P u reply
  | wrapped {reply : Octets} (filler : Filler) (header : Arr 6) (trailer : Arr 16)
      (hversion : u.version = .v3)
      (hreply : u.announcement.replyV2 P filler = (.ok reply : Exec DiscoverError Octets)) :
      Replies P u (wrapV3 header reply trailer)

/-- A reply is far shorter than the buffer. -/
theorem replyV2_eq (hP : P.Inverse) (a : Announcement) (filler : Filler) :
    ∃ body, a.replyV2 P filler = (.ok (a.layout filler body) : Exec DiscoverError Octets) ∧
      decryptAes P body = .ok (a.plain filler.pad) ∧ body.length ≤ 304 := by
  obtain ⟨body, hsealed, hlength, hplain⟩ :=
    decryptAes_encryptAes (ε := DiscoverError) P hP (a.plain filler.pad)
  refine ⟨body, ?_, hplain, ?_⟩
  · rw [Announcement.replyV2, hsealed]
    rfl
  · have hname := a.ssid_length
    rw [hlength, plain_length]
    omega

/-- **A reply** is read as what the unit announces. Either generation of the protocol carries the
same body, and the buffer takes the whole of it with its header and trailer. -/
theorem unit_of_replies (hP : P.Inverse) {u : OnNetwork} {bytes : Octets}
    (h : u.Replies P bytes) :
    (Incoming.datagram (.v4 u.source) bytes).unit P = some u.discovered := by
  refine unit_eq_some.mpr ⟨u.source, bytes, rfl, ?_⟩
  unfold OnNetwork.discovered
  cases h with
  | plain filler hversion hreply =>
      obtain ⟨body, heq, hplain, hlength⟩ := replyV2_eq hP u.announcement filler
      rw [heq] at hreply
      obtain rfl := Except.ok.inj hreply
      have hfits : (u.announcement.layout filler body).length ≤ BUFFER := by
        rw [layout_length, BUFFER]
        omega
      rw [List.take_of_length_le hfits, hversion]
      exact parse_of_body _ u.source rfl (by simp) rfl hplain
  | wrapped filler header trailer hversion hreply =>
      obtain ⟨body, heq, hplain, hlength⟩ := replyV2_eq hP u.announcement filler
      rw [heq] at hreply
      obtain rfl := Except.ok.inj hreply
      have hfits : (wrapV3 header (u.announcement.layout filler body) trailer).length ≤
          BUFFER := by
        have hheader := header.property
        have htrailer := trailer.property
        rw [wrapV3, List.length_append, List.length_append, List.length_append, layout_length,
          List.length_cons, List.length_singleton, hheader, htrailer, BUFFER]
        omega
      rw [List.take_of_length_le hfits, hversion]
      exact parse_of_body _ u.source rfl (by simp) (bodyOf_wrapV3 header _ trailer) hplain

/-- **A scan finds the units that answered**, each once and in the order of their ids, however
often and in whatever order they answered, and whatever else did. -/
theorem scan_finds (P : Primitives) (quoted : Str → Str) (hosts : List Ipv4Addr)
    (swept : Option Str) (broadcast : Bool)
    (hP : P.Inverse) {units : List OnNetwork}
    (hids : ∀ u ∈ units, ∀ v ∈ units, u.announcement.id = v.announcement.id → u = v)
    (hsocket : network.socket = .ok ())
    (hreceived : ∀ source bytes, .datagram source bytes ∈ network.received →
      (∃ u ∈ units, source = .v4 u.source ∧ u.Replies P bytes) ∨
        (Incoming.datagram source bytes).unit P = none) :
    ∃ report, scanTargets P quoted hosts swept broadcast network = .ok report ∧
      report.found.Pairwise (fun d e => d.id < e.id) ∧
      ∀ d, d ∈ report.found ↔ ∃ u ∈ units, d = u.discovered ∧
        ∃ bytes, .datagram (.v4 u.source) bytes ∈ network.received ∧ u.Replies P bytes := by
  obtain ⟨report, hreport, hfound, -⟩ := scanTargets_eq P quoted hosts swept broadcast hsocket
  have hunits : ∀ d, d ∈ network.received.filterMap (Incoming.unit P) ↔
      ∃ u ∈ units, d = u.discovered ∧
        ∃ bytes, .datagram (.v4 u.source) bytes ∈ network.received ∧ u.Replies P bytes := by
    intro d
    rw [List.mem_filterMap]
    constructor
    · rintro ⟨r, hr, hd⟩
      obtain ⟨src, bytes, rfl, -⟩ := unit_eq_some.mp hd
      rcases hreceived _ _ hr with ⟨u, hu, hsource, hreplies⟩ | hnone
      · obtain rfl := IpAddr.v4.inj hsource
        rw [unit_of_replies hP hreplies] at hd
        exact ⟨u, hu, (Option.some.inj hd).symm, bytes, hr, hreplies⟩
      · rw [hnone] at hd
        cases hd
    · rintro ⟨u, -, rfl, bytes, hr, hreplies⟩
      exact ⟨_, hr, unit_of_replies hP hreplies⟩
  refine ⟨report, hreport, hfound ▸ ascending_collect _, fun d => ?_⟩
  rw [hfound, mem_collect, ← hunits]
  refine ⟨First.mem, fun hd => (first_iff_mem fun e he hid => ?_).mpr hd⟩
  -- An id is one unit's, and a unit says the same each time.
  obtain ⟨u, hu, rfl, -⟩ := (hunits d).mp hd
  obtain ⟨v, hv, rfl, -⟩ := (hunits e).mp he
  rw [hids v hv u hu (Fin.ext hid)]

/-- A unit of the third generation. -/
def homeUnit : OnNetwork := ⟨unitAnnouncement, ⟨192, 168, 1, 73⟩, .v3⟩

/-- Its answer, byte for byte. -/
def homeReply : Octets :=
  wrapV3 (Arr.zero 6)
    (unitAnnouncement.layout noFiller (unitBlocks.flatMap fun block => block.2.val)) (Arr.zero 16)

/-- It is an answer of this unit. -/
theorem homeUnit_replies : homeUnit.Replies unitPrimitives homeReply :=
  .wrapped noFiller (Arr.zero 6) (Arr.zero 16) rfl (by decide +kernel)

/-- It answers twice, and the router once. -/
def homeNetwork (reply : Octets) : Network where
  received := [.datagram (.v4 ⟨192, 168, 1, 73⟩) reply, .datagram (.v4 ⟨192, 168, 1, 1⟩) [0x3C],
    .datagram (.v4 ⟨192, 168, 1, 73⟩) reply]

/-- The unit is found, once. Its reply comes twice, and a datagram of another host in between is
no reply of any unit. -/
theorem scan_finds_homeUnit : ∃ (reply : Octets) (report : ScanReport),
    homeUnit.Replies unitPrimitives reply ∧
      scanTargets unitPrimitives id [⟨192, 168, 1, 1⟩, ⟨192, 168, 1, 73⟩] none true
        (homeNetwork reply) = .ok report ∧
      ∀ d, d ∈ report.found ↔ d = homeUnit.discovered := by
  have hreceived : ∀ source bytes, .datagram source bytes ∈ (homeNetwork homeReply).received →
      (∃ u ∈ [homeUnit], source = .v4 u.source ∧ u.Replies unitPrimitives bytes) ∨
        (Incoming.datagram source bytes).unit unitPrimitives = none := by
    intro source bytes hmem
    simp only [homeNetwork, List.mem_cons, List.not_mem_nil, or_false,
      Incoming.datagram.injEq] at hmem
    rcases hmem with ⟨rfl, rfl⟩ | ⟨rfl, rfl⟩ | ⟨rfl, rfl⟩
    · exact .inl ⟨homeUnit, List.mem_singleton_self _, rfl, homeUnit_replies⟩
    · exact .inr rfl
    · exact .inl ⟨homeUnit, List.mem_singleton_self _, rfl, homeUnit_replies⟩
  obtain ⟨report, hreport, -, hfound⟩ := scan_finds unitPrimitives id
    [⟨192, 168, 1, 1⟩, ⟨192, 168, 1, 73⟩] none true unitPrimitives_inverse (by simp) rfl hreceived
  refine ⟨_, report, homeUnit_replies, hreport, fun d => (hfound d).trans ?_⟩
  constructor
  · rintro ⟨u, hu, rfl, -⟩
    rw [List.mem_singleton.mp hu]
  · rintro rfl
    exact ⟨homeUnit, List.mem_singleton_self _, rfl, _, List.mem_cons_self, homeUnit_replies⟩

/-! ## The server's own subnet -/

/-- The hosts of a `/24`, in order. -/
theorem hosts_eight (n : Nat) :
    Net.hosts 8 n = (List.range 254).map fun d => blockStart 8 n + (d + 1) := by
  have hrange : (List.range 256).filter (fun i => i ≠ 0 && i ≠ 255) =
      (List.range 254).map (· + 1) := by decide +kernel
  have htest : ∀ i, isHost 8 n (blockStart 8 n + i) = (i ≠ 0 && i ≠ 255) := by
    intro i
    simp [isHost]
  rw [Net.hosts, block, List.filter_map]
  change ((List.range 256).filter fun i => isHost 8 n (blockStart 8 n + i)).map _ = _
  simp only [htest]
  rw [hrange, List.map_map]
  rfl

/-- The helper finds the hosts of the subnet. -/
theorem hostsOf24_eq (ip : Ipv4Addr) : hostsOf24 ip = (Net.hosts 8 ip.toNat).map .ofNat := by
  rw [hosts_eight, hostsOf24, List.map_map]
  refine List.map_congr_left fun d hd => ?_
  have hlt := List.mem_range.mp hd
  have hnumber : (⟨ip.a, ip.b, ip.c, UInt8.ofNat (d + 1)⟩ : Ipv4Addr).toNat =
      blockStart 8 ip.toNat + (d + 1) := by
    have hd := ip.d.toNat_lt
    simp only [Ipv4Addr.toNat, blockStart, UInt8.toNat_ofNat']
    omega
  rw [← Ipv4Addr.ofNat_toNat ⟨ip.a, ip.b, ip.c, UInt8.ofNat (d + 1)⟩, hnumber]
  rfl

/-- The address that is picked is private. -/
theorem localIpv4_private {locals : List (Option IpAddr)} {ip : Ipv4Addr}
    (h : localIpv4 locals = some ip) : ip.isPrivate = true := by
  obtain ⟨x, -, hx⟩ := List.exists_of_findSome?_eq_some h
  split at hx
  next ip' =>
    split at hx
    next hprivate =>
      obtain rfl := Option.some.inj hx
      exact (Bool.and_eq_true_iff.mp hprivate).1
    next => cases hx
  next => cases hx

/-- The subnet that is named after it is the one around it. -/
theorem parseCidr_own {ip : Ipv4Addr} (h : ip.isPrivate = true) :
    parseCidr (ip.toText ++ "/24".toList) = .ok (hostsOf24 ip, ip.toText ++ "/24".toList) := by
  refine parseCidr_eq_ok.mpr ⟨ip, 24, ?_, by decide, h, by decide, hostsOf24_eq ip, rfl⟩
  refine ⟨[], [], [], [], "24".toList, by simp, nofun, "24".toList, .inl rfl, nofun, ?_, rfl⟩
  have htwo : IsDigitIn 10 '2' := by decide
  have hfour : IsDigitIn 10 '4' := by decide
  simp [htwo, hfour]

/-- What a sweep of the subnet finds. -/
theorem scanSubnet_own {ip : Ipv4Addr} (hip : ip.isPrivate = true)
    (hsocket : network.socket = .ok ()) :
    ∃ report, scanSubnet P quoted (ip.toText ++ "/24".toList) network = .ok report ∧
      report.found = collect Discovered.id (network.received.filterMap (Incoming.unit P)) := by
  unfold scanSubnet
  rw [parseCidr_own hip, mapFail_ok, ok_bind]
  obtain ⟨report, hreport, hfound, -⟩ := scanTargets_eq P quoted (hostsOf24 ip)
    (some (ip.toText ++ "/24".toList)) false hsocket
  exact ⟨report, hreport, hfound⟩

/-- **The server's own subnet.**  Scanning without a subnet sweeps, listens to and reports what
naming the `/24` of the server's address does, and differs by the broadcast alone. -/
theorem scan_own_subnet {locals : List (Option IpAddr)} {ip : Ipv4Addr}
    (hip : localIpv4 locals = some ip) (hsocket : network.socket = .ok ()) :
    ∃ report, scanSubnet P quoted (ip.toText ++ "/24".toList) network = .ok report ∧
      scan P quoted locals network = .ok { report with
        broadcastSent := DISCOVERY_PORTS.any fun port => network.sends ⟨BROADCAST, port⟩ } := by
  unfold scanSubnet scan scanTargets
  rw [parseCidr_own (localIpv4_private hip), mapFail_ok, ok_bind, hip, hsocket]
  dsimp only
  rw [listen_eq, ok_bind]
  exact ⟨_, rfl, rfl⟩

/-- The unit and the router answer on 192.168.1.0/24, and the unit is found. -/
theorem scan_own_subnet_home : ∃ report,
    scanSubnet unitPrimitives id ((⟨192, 168, 1, 5⟩ : Ipv4Addr).toText ++ "/24".toList)
        (homeNetwork homeReply) = .ok report ∧
      scan unitPrimitives id [none, some (.v4 ⟨192, 168, 1, 5⟩)] (homeNetwork homeReply) =
        .ok { report with broadcastSent := true } ∧
      homeUnit.discovered ∈ report.found := by
  obtain ⟨report, hsubnet, hscan⟩ :=
    @scan_own_subnet unitPrimitives id (homeNetwork homeReply)
      [none, some (.v4 ⟨192, 168, 1, 5⟩)] ⟨192, 168, 1, 5⟩ rfl rfl
  obtain ⟨report', hsubnet', hfound⟩ :=
    @scanSubnet_own unitPrimitives id (homeNetwork homeReply) ⟨192, 168, 1, 5⟩ rfl rfl
  obtain rfl := Except.ok.inj (hsubnet'.symm.trans hsubnet)
  refine ⟨report', hsubnet, hscan, ?_⟩
  have hreceived : (homeNetwork homeReply).received =
      .datagram (.v4 homeUnit.source) homeReply :: (homeNetwork homeReply).received.tail := rfl
  rw [hfound, mem_collect, hreceived,
    List.filterMap_cons_some (unit_of_replies unitPrimitives_inverse homeUnit_replies)]
  exact List.find?_cons_of_pos (decide_eq_true rfl)

end BreezeDevice
