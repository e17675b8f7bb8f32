import Mathlib.Data.List.Infix
import BreezeCore.Auth.Net
import BreezeCore.Lib.Ranges

/-!
# The proxy configurations

The texts that `breeze-core proxy` writes for nginx, Apache and Caddy.  Each lets only
listed addresses at the paths where a pairing is approved and devices are managed; the
server behind it has a predicate of its own for that.

* `local_agrees_iff` — where the lists and the predicate agree, address by address.
-/

namespace BreezeCli

open Text Net

/-- The line in front of what was added to Caddy's file. -/
def MARK_START : String := "# --- breeze-core (added by `breeze-core proxy`) ---"
/-- The line behind the block that is added to Caddy's file. -/
def MARK_END : String := "# --- end breeze-core ---"

/-- The private ranges the server itself treats as "the LAN", so the proxy and the server
agree about who may approve a pairing. -/
def LAN : List String :=
  ["10.0.0.0/8", "172.16.0.0/12", "192.168.0.0/16", "127.0.0.1", "::1"]

/-- The list in the Caddyfile. -/
def CADDY_LAN : List String :=
  ["10.0.0.0/8", "172.16.0.0/12", "192.168.0.0/16", "127.0.0.1/8", "::1/128"]

/-- Lines, each with its end. -/
def unlines (text : List String) : String := String.join (text.map (· ++ "\n"))

/-- The configuration of nginx, line by line. -/
def nginxLines (domain port : String) : List String :=
  let headers :=
    ["        proxy_set_header Host              $host;",
      "        proxy_set_header X-Forwarded-For   $remote_addr;",
      "        proxy_set_header X-Forwarded-Proto $scheme;"]
  let upstream := ["        proxy_pass http://127.0.0.1:" ++ port ++ ";"] ++ headers
  ["# Breeze Core behind nginx, written by `breeze-core proxy`; undo with",
    "# `breeze-core proxy --undo`. certbot adds the HTTPS half to this block.",
    "server \x7b", "    listen 80;", "    listen [::]:80;",
    "    server_name " ++ domain ++ ";", "",
    "    # $remote_addr, NOT $proxy_add_x_forwarded_for: overwrite, never append.", "",
    "    # Pairing approval and device management: the local network only.",
    "    location ~ ^/api/auth/(enroll/approve|devices) \x7b"] ++
  LAN.map (fun r => "        allow " ++ r ++ ";") ++
  ["        deny all;"] ++ upstream ++
  ["    \x7d", "", "    # The live updates: one response that never ends. Never buffered.",
    "    location = /api/units/stream \x7b"] ++ upstream ++
  ["        proxy_buffering off;", "        proxy_cache off;", "        proxy_read_timeout 1h;",
    "        gzip off;", "    \x7d", "", "    location / \x7b"] ++ upstream ++
  ["    \x7d", "\x7d"]

/-- As the file it is written to. -/
def nginxConf (domain port : String) : String := unlines (nginxLines domain port)

/-- The configuration of Apache, line by line. -/
def apacheLines (domain port : String) : List String :=
  ["# Breeze Core behind Apache, written by `breeze-core proxy`; undo with",
    "# `breeze-core proxy --undo`. certbot adds the HTTPS half alongside this.",
    "<VirtualHost *:80>", "    ServerName " ++ domain, "    ProxyPreserveHost On", "",
    "    # X-Forwarded-For OVERWRITTEN with the real peer: mod_proxy's own header",
    "    # appends to whatever the client sent, so it is off and the header is set.",
    "    ProxyAddHeaders Off",
    "    RequestHeader set X-Forwarded-For   \"expr=%\x7bREMOTE_ADDR\x7d\"",
    "    RequestHeader set X-Forwarded-Proto \"expr=%\x7bREQUEST_SCHEME\x7d\"", "",
    "    # Pairing approval and device management: the local network only.",
    "    <Location ~ \"^/api/auth/(enroll/approve|devices)\">",
    "        Require ip " ++ " ".intercalate LAN, "    </Location>", "",
    "    # The live updates: never buffered or compressed.",
    "    <Location \"/api/units/stream\">", "        SetEnv no-gzip 1",
    "        SetEnv proxy-sendchunked 1", "    </Location>", "",
    "    ProxyPass        / http://127.0.0.1:" ++ port ++ "/",
    "    ProxyPassReverse / http://127.0.0.1:" ++ port ++ "/", "</VirtualHost>"]

/-- As a file. -/
def apacheConf (domain port : String) : String := unlines (apacheLines domain port)

/-- The block that is added to Caddy's file, line by line. -/
def caddyLines (domain port : String) : List String :=
  let upstream :=
    ["\t\treverse_proxy 127.0.0.1:" ++ port ++ " \x7b",
      "\t\t\theader_up X-Forwarded-For \x7bremote_host\x7d",
      "\t\t\theader_up X-Forwarded-Proto \x7bscheme\x7d"]
  [MARK_START,
    "# Undo with `breeze-core proxy --undo`. No trusted_proxies anywhere: that is what",
    "# makes Caddy overwrite X-Forwarded-For with the real peer.",
    domain ++ " \x7b", "\tencode gzip", "\theader \x7b",
    "\t\tStrict-Transport-Security \"max-age=63072000; includeSubDomains\"", "\t\t-Server",
    "\t\x7d", "", "\t# Pairing approval and device management: the local network only.",
    "\t@admin path /api/auth/enroll/approve* /api/auth/devices*", "\thandle @admin \x7b",
    "\t\t@notlan not remote_ip " ++ " ".intercalate CADDY_LAN, "\t\trespond @notlan 403"] ++
  upstream ++
  ["\t\t\x7d", "\t\x7d", "", "\t# The live updates: never buffered.",
    "\t@stream path /api/units/stream", "\thandle @stream \x7b"] ++ upstream ++
  ["\t\t\tflush_interval -1", "\t\t\x7d", "\t\x7d", "", "\thandle \x7b"] ++ upstream ++
  ["\t\t\x7d", "\t\x7d", "\x7d", MARK_END]

/-- As a text. -/
def caddyBlock (domain port : String) : String := unlines (caddyLines domain port)

/-! ## Who is let in -/

/-- The three servers. -/
inductive Kind where
  | nginx
  | apache
  | caddy
  deriving DecidableEq, Repr

/-- The addresses that a configuration lets at the admin paths, as it lists them
(`nginx_lists`, `apache_lists` and `caddy_lists`). -/
def Kind.adminList : Kind → List String
  | .nginx | .apache => LAN
  | .caddy => CADDY_LAN

/-- Whether a configuration lets an address at the admin paths. -/
def Kind.lets (kind : Kind) (ip : IpAddr) : Bool :=
  admits (kind.adminList.filterMap fun text => Range.parse text.toList) ip

/-- **One notion of local** for an address: all configurations let it in exactly when the
server does, and an IPv4 address behind an IPv6 one gets the answer of its own. -/
structure LocalAgrees (ip : IpAddr) : Prop where
  proxies : ∀ kind : Kind, kind.lets ip = BreezeAuth.isPrivateIp (some ip)
  mapped : ∀ v6, ip = .v6 v6 → ∀ v4 ∈ v6.toIpv4Mapped,
    BreezeAuth.isPrivateIp (some ip) = BreezeAuth.isPrivateIp (some (.v4 v4))

/-- Loopback other than `127.0.0.1`, link-local, unique-local, or behind an IPv6 address. -/
def Disputed : IpAddr → Bool
  | .v4 ip => (ip.isLoopback && ip != ⟨127, 0, 0, 1⟩) || ip.isLinkLocal
  | .v6 ip =>
      ip.isUniqueLocal || ip.isUnicastLinkLocal ||
        ip.toIpv4Mapped.any fun v4 => BreezeAuth.isPrivateIp (some (.v4 v4))

/-! ### The lists -/

/-- The word with which a line starts that lets addresses in at the admin paths. -/
def Kind.directive : Kind → Str
  | .nginx => "        allow ".toList
  | .apache => "        Require ip ".toList
  | .caddy => "\t\t@notlan not remote_ip ".toList

/-- The addresses that a line of a configuration lets in. -/
def Kind.listed (kind : Kind) (line : String) : List Str :=
  if kind.directive <+: line.toList then
    ((line.toList.drop kind.directive.length).splitOnP fun c => c == ' ' || c == ';').filter
      (· ≠ [])
  else []

/-- A line that starts in another way lists nothing, however it goes on. -/
theorem Kind.listed_append {kind : Kind} (start rest : String)
    (h : ¬ kind.directive.take start.toList.length <+: start.toList) :
    kind.listed (start ++ rest) = [] := by
  refine if_neg fun hlead => h ?_
  rw [String.toList_append] at hlead
  have htake := hlead.take start.toList.length
  rwa [List.take_left] at htake

/-- **nginx lets in** what is in the list, whatever the name of the site and the port. -/
theorem nginx_lists (domain port : String) :
    (nginxLines domain port).flatMap (Kind.listed .nginx) = LAN.map String.toList := by
  have hname := @Kind.listed_append .nginx "    server_name " (domain ++ ";") (by decide +kernel)
  have hpass := @Kind.listed_append .nginx "        proxy_pass http://127.0.0.1:" (port ++ ";")
    (by decide +kernel)
  rw [← String.append_assoc] at hname hpass
  unfold nginxLines
  simp only [List.flatMap_append, List.flatMap_cons, List.flatMap_nil, hname, hpass]
  decide +kernel

/-- **Apache lets in** the same list. -/
theorem apache_lists (domain port : String) :
    (apacheLines domain port).flatMap (Kind.listed .apache) = LAN.map String.toList := by
  have hname := @Kind.listed_append .apache "    ServerName " domain (by decide +kernel)
  have hpass := @Kind.listed_append .apache "    ProxyPass        / http://127.0.0.1:" (port ++ "/")
    (by decide +kernel)
  have hreverse := @Kind.listed_append .apache "    ProxyPassReverse / http://127.0.0.1:"
    (port ++ "/") (by decide +kernel)
  rw [← String.append_assoc] at hpass hreverse
  unfold apacheLines
  simp only [List.flatMap_cons, List.flatMap_nil, hname, hpass, hreverse]
  decide +kernel

/-- **Caddy lets in** a list of its own; the name of the site does not start with a tab. -/
theorem caddy_lists (domain port : String) (h : domain.toList.head? ≠ some '\t') :
    (caddyLines domain port).flatMap (Kind.listed .caddy) = CADDY_LAN.map String.toList := by
  have hname : Kind.listed .caddy (domain ++ " \x7b") = [] := by
    refine if_neg fun hlead => ?_
    rw [String.toList_append] at hlead
    cases hdomain : domain.toList with
    | nil =>
        rw [hdomain] at hlead
        exact absurd hlead (by decide +kernel)
    | cons c rest =>
        rw [hdomain] at h hlead
        obtain ⟨hfirst, -⟩ := List.cons_prefix_cons.mp hlead
        exact h (congrArg some hfirst.symm)
  have hpass := @Kind.listed_append .caddy "\t\treverse_proxy 127.0.0.1:" (port ++ " \x7b")
    (by decide +kernel)
  rw [← String.append_assoc] at hpass
  unfold caddyLines
  simp only [List.flatMap_append, List.flatMap_cons, List.flatMap_nil, hname, hpass]
  decide +kernel

/-- What the list of nginx and Apache is read as. -/
theorem lan_ranges : LAN.filterMap (fun text => Range.parse text.toList) =
    [⟨.v4 ⟨10, 0, 0, 0⟩, 8⟩, ⟨.v4 ⟨172, 16, 0, 0⟩, 12⟩, ⟨.v4 ⟨192, 168, 0, 0⟩, 16⟩,
      ⟨.v4 ⟨127, 0, 0, 1⟩, 32⟩, ⟨.v6 ⟨0, 0, 0, 0, 0, 0, 0, 1⟩, 128⟩] := by decide +kernel

/-- The list that Caddy's block lets in, as ranges of addresses. -/
theorem caddy_ranges : CADDY_LAN.filterMap (fun text => Range.parse text.toList) =
    [⟨.v4 ⟨10, 0, 0, 0⟩, 8⟩, ⟨.v4 ⟨172, 16, 0, 0⟩, 12⟩, ⟨.v4 ⟨192, 168, 0, 0⟩, 16⟩,
      ⟨.v4 ⟨127, 0, 0, 1⟩, 8⟩, ⟨.v6 ⟨0, 0, 0, 0, 0, 0, 0, 1⟩, 128⟩] := by decide +kernel

/-- The middle one of the private ranges, by the second octet. -/
theorem second_octet (b : UInt8) : b &&& 0xF0 = 16 ↔ b.toNat / 16 = 1 := by
  have hall : ∀ n : Fin 256, UInt8.ofNat n &&& 0xF0 = 16 ↔ n.val / 16 = 1 := by decide +kernel
  have hb := hall ⟨b.toNat, b.toNat_lt⟩
  rw [UInt8.ofNat_toNat] at hb
  exact hb

/-- What nginx and Apache let in of IPv4: the private ranges and one loopback address. -/
theorem lan_v4 (ip : Ipv4Addr) :
    admits (LAN.filterMap fun text => Range.parse text.toList) (.v4 ip) = true ↔
      ip.isPrivate = true ∨ ip = ⟨127, 0, 0, 1⟩ := by
  rw [lan_ranges]
  simp only [admits, List.any_cons, List.any_nil, Bool.or_eq_true, Range.contains_v4_8,
    Range.contains_v4_12, Range.contains_v4_16, Range.contains_v4_32, Range.contains_v6_v4,
    Ipv4Addr.isPrivate, beq_iff_eq, Bool.and_eq_true, second_octet]
  simp [or_assoc]

/-- What Caddy lets in: the private ranges and loopback. -/
theorem caddy_v4 (ip : Ipv4Addr) :
    admits (CADDY_LAN.filterMap fun text => Range.parse text.toList) (.v4 ip) = true ↔
      ip.isPrivate = true ∨ ip.isLoopback = true := by
  rw [caddy_ranges]
  simp only [admits, List.any_cons, List.any_nil, Bool.or_eq_true, Range.contains_v4_8,
    Range.contains_v4_12, Range.contains_v4_16, Range.contains_v6_v4, Ipv4Addr.isPrivate,
    Ipv4Addr.isLoopback, beq_iff_eq, Bool.and_eq_true, second_octet]
  simp [or_assoc]

/-- Of IPv6 all let in the loopback address alone. -/
theorem lets_v6 (kind : Kind) (ip : Ipv6Addr) : kind.lets (.v6 ip) = ip.isLoopback := by
  have hlists : kind.lets (.v6 ip) = true ↔ ip = ⟨0, 0, 0, 0, 0, 0, 0, 1⟩ := by
    unfold Kind.lets
    cases kind with
    | nginx | apache =>
        simp only [Kind.adminList, lan_ranges]
        simp [admits, Range.contains_v4_v6, Range.contains_v6_128]
    | caddy =>
        simp only [Kind.adminList, caddy_ranges]
        simp [admits, Range.contains_v4_v6, Range.contains_v6_128]
  rw [Bool.eq_iff_iff, hlists]
  exact decide_eq_true_iff.symm

/-! ### Where they agree -/

/-- What is disputed is in none of the private ranges. -/
theorem isPrivate_of_disputed {ip : Ipv4Addr} (h : ip.isLoopback = true ∨ ip.isLinkLocal = true) :
    ip.isPrivate = false := by
  have hfirst : ip.a = 127 ∨ ip.a = 169 := by
    simp only [Ipv4Addr.isLoopback, Ipv4Addr.isLinkLocal, beq_iff_eq, Bool.and_eq_true] at h
    tauto
  unfold Ipv4Addr.isPrivate
  rcases hfirst with hfirst | hfirst <;> rw [hfirst] <;> rfl

/-- The three and the service agree on an address of four bytes, unless it is disputed. nginx and
Apache list one loopback address, Caddy all of them, and none lists the addresses that are local
to the link. -/
theorem proxies_v4_iff (ip : Ipv4Addr) :
    (∀ kind : Kind, kind.lets (.v4 ip) = BreezeAuth.isPrivateIp (some (.v4 ip))) ↔
      Disputed (.v4 ip) = false := by
  have hserver : BreezeAuth.isPrivateIp (some (.v4 ip)) = true ↔
      ip.isPrivate = true ∨ ip.isLoopback = true ∨ ip.isLinkLocal = true := by
    simp [BreezeAuth.isPrivateIp, or_assoc]
  have hnginx : Kind.lets .nginx (.v4 ip) = true ↔ ip.isPrivate = true ∨ ip = ⟨127, 0, 0, 1⟩ :=
    lan_v4 ip
  have hapache : Kind.lets .apache (.v4 ip) = true ↔ ip.isPrivate = true ∨ ip = ⟨127, 0, 0, 1⟩ :=
    lan_v4 ip
  have hcaddy : Kind.lets .caddy (.v4 ip) = true ↔ ip.isPrivate = true ∨ ip.isLoopback = true :=
    caddy_v4 ip
  have hhere : ip = ⟨127, 0, 0, 1⟩ → ip.isLoopback = true := by
    rintro rfl
    rfl
  have hdisputed : Disputed (.v4 ip) = false ↔
      (ip.isLoopback = true → ip = ⟨127, 0, 0, 1⟩) ∧ ¬ ip.isLinkLocal = true := by
    simp [Disputed]
  have hpublic := @isPrivate_of_disputed ip
  rw [hdisputed]
  constructor
  · intro h
    have hsame := (h .nginx) ▸ hnginx
    rw [hserver] at hsame
    refine ⟨fun hloop => ?_, fun hlink => ?_⟩
    · have hnone := hpublic (.inl hloop)
      exact (hsame.mp (.inr (.inl hloop))).resolve_left (by simp [hnone])
    · have hnone := hpublic (.inr hlink)
      have hone := (hsame.mp (.inr (.inr hlink))).resolve_left (by simp [hnone])
      rw [hone] at hlink
      exact absurd hlink (by decide)
  · rintro ⟨hloop, hlink⟩ kind
    have hone : ip = ⟨127, 0, 0, 1⟩ ↔ ip.isLoopback = true ∨ ip.isLinkLocal = true :=
      ⟨fun h => .inl (hhere h), fun h => h.elim hloop fun h => absurd h hlink⟩
    have hall : ip.isLoopback = true ↔ ip.isLoopback = true ∨ ip.isLinkLocal = true :=
      (or_iff_left hlink).symm
    rw [Bool.eq_iff_iff, hserver]
    cases kind with
    | nginx => exact hnginx.trans (or_congr_right hone)
    | apache => exact hapache.trans (or_congr_right hone)
    | caddy => exact hcaddy.trans (or_congr_right hall)

/-- And on one of the sixth version, unless it is local in one of two ways. Of these addresses the
three let in the loopback alone. -/
theorem proxies_v6_iff (ip : Ipv6Addr) :
    (∀ kind : Kind, kind.lets (.v6 ip) = BreezeAuth.isPrivateIp (some (.v6 ip))) ↔
      (ip.isUniqueLocal || ip.isUnicastLinkLocal) = false := by
  have hserver : BreezeAuth.isPrivateIp (some (.v6 ip)) =
      (ip.isLoopback || ip.isUniqueLocal || ip.isUnicastLinkLocal) := rfl
  have hloop : ip.isLoopback = true → (ip.isUniqueLocal || ip.isUnicastLinkLocal) = false := by
    intro h
    obtain rfl := of_decide_eq_true h
    decide
  have hone : ip.isLoopback = BreezeAuth.isPrivateIp (some (.v6 ip)) ↔
      (ip.isUniqueLocal || ip.isUnicastLinkLocal) = false := by
    rw [hserver, Bool.or_assoc]
    cases hown : ip.isLoopback with
    | true => simp [hloop hown]
    | false => simp
  rw [← hone]
  constructor
  · intro h
    exact (lets_v6 .nginx ip).symm.trans (h .nginx)
  · intro h kind
    exact (lets_v6 kind ip).trans h

/-- An IPv6 address with an IPv4 address behind it is local to nobody. -/
theorem isPrivateIp_mapped {ip : Ipv6Addr} {v4 : Ipv4Addr} (h : v4 ∈ ip.toIpv4Mapped) :
    BreezeAuth.isPrivateIp (some (.v6 ip)) = false := by
  unfold Ipv6Addr.toIpv4Mapped at h
  split at h
  next hgroups =>
    obtain ⟨s0, s1, s2, s3, s4, s5, s6, s7⟩ := ip
    obtain ⟨rfl, rfl, rfl, rfl, rfl, rfl⟩ := hgroups
    simp [BreezeAuth.isPrivateIp, Ipv6Addr.isLoopback]
  next => cases h

/-- **One notion of local**, exactly for the addresses that are not disputed. An address of the
sixth version may also stand for one of four bytes, which the service does not look behind: it is
disputed where the one it stands for is local. -/
theorem local_agrees_iff (ip : IpAddr) : LocalAgrees ip ↔ Disputed ip = false := by
  cases ip with
  | v4 ip =>
      rw [← proxies_v4_iff]
      exact ⟨fun h => h.proxies, fun h => ⟨h, nofun⟩⟩
  | v6 ip =>
      have hmapped : (∀ v4 ∈ ip.toIpv4Mapped, BreezeAuth.isPrivateIp (some (.v6 ip)) =
          BreezeAuth.isPrivateIp (some (.v4 v4))) ↔
          (ip.toIpv4Mapped.any fun v4 => BreezeAuth.isPrivateIp (some (.v4 v4))) = false := by
        cases hbehind : ip.toIpv4Mapped with
        | none => simp
        | some v4 =>
            rw [isPrivateIp_mapped hbehind]
            simp
      have hdisputed : Disputed (.v6 ip) = false ↔
          (ip.isUniqueLocal || ip.isUnicastLinkLocal) = false ∧
            (ip.toIpv4Mapped.any fun v4 => BreezeAuth.isPrivateIp (some (.v4 v4))) = false :=
        Bool.or_eq_false_iff
      rw [hdisputed, ← proxies_v6_iff, ← hmapped]
      constructor
      · exact fun h => ⟨h.proxies, h.mapped ip rfl⟩
      · rintro ⟨hproxies, hbehind⟩
        refine ⟨hproxies, ?_⟩
        rintro v6 hsame
        obtain rfl := IpAddr.v6.inj hsame
        exact hbehind

/-- A link-local address: the server takes it for local, and no proxy lets it in. -/
theorem linkLocal_disputed :
    BreezeAuth.isPrivateIp (some (.v4 ⟨169, 254, 1, 1⟩)) = true ∧
      (∀ kind : Kind, kind.lets (.v4 ⟨169, 254, 1, 1⟩) = false) ∧
      ¬ LocalAgrees (.v4 ⟨169, 254, 1, 1⟩) := by
  have hserver : BreezeAuth.isPrivateIp (some (.v4 ⟨169, 254, 1, 1⟩)) = true := rfl
  have hlets : ∀ kind : Kind, kind.lets (.v4 ⟨169, 254, 1, 1⟩) = false := by
    intro kind
    cases kind <;> decide +kernel
  refine ⟨hserver, hlets, ?_⟩
  intro h
  have hsame := h.proxies .nginx
  rw [hserver, hlets] at hsame
  cases hsame

end BreezeCli
