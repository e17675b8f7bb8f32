import Mathlib.Data.List.Infix
import BreezeCore.Cli.Journal
import BreezeCore.Lib.Lines

/-!
# The wizard

`breeze-core proxy`: choose a web server, name the site, write and load its
configuration, get a certificate, and move Breeze Core behind it.  What it prints is left
out, and so are the checks at the end, which only print.
-/

namespace BreezeCli

open Text Net Actions

/-! ## Package managers -/

/-- The first of the package managers that is on the path. -/
def Pm.detect (disk : Disk) : Option Pm :=
  ([("apt-get", Pm.apt), ("dnf", .dnf), ("pacman", .pacman), ("apk", .apk),
    ("zypper", .zypper)].find? fun entry => disk.onPath entry.1).map Prod.snd

/-- The command that installs packages. -/
def Pm.install (pm : Pm) (packages : List String) : List String :=
  (match pm with
    | .apt => ["apt-get", "install", "-y"]
    | .dnf => ["dnf", "install", "-y"]
    | .pacman => ["pacman", "-S", "--needed", "--noconfirm"]
    | .apk => ["apk", "add"]
    | .zypper => ["zypper", "--non-interactive", "install"]) ++ packages

/-- The package names for a server here, where this wizard supports it. -/
def Pm.serverPackages (pm : Pm) : Kind → Option (List String)
  | .nginx => some ["nginx"]
  | .caddy => some ["caddy"]
  | .apache =>
      match pm with
      | .apt => some ["apache2"]
      | .dnf => some ["httpd", "mod_ssl"]
      | _ => none

/-- The packages of certbot, which are named differently from one distribution to the next. -/
def Pm.certbotPackages (pm : Pm) (kind : Kind) : List String :=
  let plugin :=
    match kind, pm with
    | .apache, .pacman | .apache, .apk => "certbot-apache"
    | .apache, _ => "python3-certbot-apache"
    | _, .pacman | _, .apk => "certbot-nginx"
    | _, _ => "python3-certbot-nginx"
  ["certbot", plugin]

/-- Run the package manager. -/
def install (command : List String) : Wizard Unit := do
  let _ ← runCmd command true
  modify fun host => if host.dryRun then host else { host with disk := host.packages host.disk }

/-! ## Questions -/

/-- Read lines until one is accepted. -/
def readUntil {α : Type} (accept : Str → Option α) (atEnd : Except String α) :
    List Typed → Except String α × List Typed
  | [] => (atEnd, [])
  | .eof :: rest => (atEnd, rest)
  | .failed e :: rest => (.error ("cannot read from the terminal: " ++ e), rest)
  | .line text :: rest =>
      match accept (trim text) with
      | some a => (.ok a, rest)
      | none => readUntil accept atEnd rest

/-- The lines read in a conversation that leaves these. -/
def Host.hear (host : Host) (rest : List Typed) : Host :=
  { host with
    answers := rest
    exchanges := host.exchanges ++
      (host.answers.take (host.answers.length - rest.length)).map .typed }

/-- Having heard the front of the answers, the rest is left, and what was heard is in the
account. -/
theorem Host.hear_append {host : Host} {used rest : List Typed} (h : host.answers = used ++ rest) :
    host.hear rest = { host with
      answers := rest
      exchanges := host.exchanges ++ used.map .typed } := by
  unfold Host.hear
  rw [h, List.length_append, Nat.add_sub_cancel, List.take_left]

/-- A conversation at the terminal. -/
def converse {α : Type} (talk : List Typed → Except String α × List Typed) : Wizard α := do
  let host ← get
  modify fun host => host.hear (talk host.answers).2
  match (talk host.answers).1 with
  | .ok a => pure a
  | .error e => stop e

/-- Yes, no, or the default for an empty line; anything else is asked again. -/
def yesOrNo (default : Bool) (text : Str) : Option Bool :=
  let a := toAsciiLowercase text
  if a = [] then some default
  else if a = "y".toList ∨ a = "yes".toList then some true
  else if a = "n".toList ∨ a = "no".toList then some false
  else none

/-- Ask until one of these is typed; at the end of the input the default holds. -/
def yesNo (default : Bool) : Wizard Bool :=
  converse (readUntil (yesOrNo default) (.ok default))

/-! ## 1. The web server -/

/-- The server of that name. -/
def kindNamed (name : Str) : Option Kind :=
  let name := toAsciiLowercase name
  if name = "nginx".toList then some .nginx
  else if name = "apache".toList ∨ name = "httpd".toList ∨ name = "apache2".toList then
    some .apache
  else if name = "caddy".toList then some .caddy
  else none

/-- The server by its number in the list that is printed. -/
def oneOfThree (text : Str) : Option Kind :=
  if text = "1".toList then some .caddy
  else if text = "2".toList then some .nginx
  else if text = "3".toList then some .apache
  else none

/-- The entry with a number, counted from one. -/
def numbered (found : List Kind) (text : Str) : Option Kind :=
  match fromStrRadix 10 (2 ^ 64) text with
  | some (n + 1) => found[n]?
  | _ => none

/-- Apache is set up on two layouts only. -/
def supported (kind : Kind) : Wizard (Option Kind) := do
  let host ← get
  if kind = .apache ∧ ¬ (host.disk.isDir "/etc/apache2" ∨ host.disk.isDir "/etc/httpd/conf.d") then
    pure none
  else pure (some kind)

/-- The server that is named, else the one there is, else one that is asked for. Where none is
installed the package manager may install the one that is asked for. -/
def chooseServer (asked : Option Str) : Wizard (Option Kind) := do
  let host ← get
  match asked, [Kind.caddy, .nginx, .apache].filter host.installed with
  | some name, _ =>
      match kindNamed name with
      | some kind => supported kind
      | none =>
          stop ("unknown --server '" ++ String.ofList (toAsciiLowercase name) ++
            "': nginx, apache or caddy")
  | none, [kind] => supported kind
  | none, [] => do
      let kind ← converse (readUntil oneOfThree (.error "no answer"))
      match host.pm with
      | none => pure none
      | some pm =>
          match pm.serverPackages kind with
          | none => pure none
          | some packages => do
              if ← yesNo true then do
                install (pm.install packages)
                supported kind
              else pure none
  | none, found => do
      let kind ← converse (readUntil (numbered found) (.error "no answer"))
      supported kind

/-! ## 2. The name and its DNS -/

/-- What a label of a host name is made of, beside hyphens. -/
def isAsciiAlphanumeric (c : Char) : Bool :=
  ('a' ≤ c && c ≤ 'z') || ('A' ≤ c && c ≤ 'Z') || ('0' ≤ c && c ≤ '9')

/-- A host name of at least two labels, none of them empty, too long or with a hyphen at an
end. -/
def validDomain (name : Str) : Bool :=
  let labels := split '.' name
  (toUtf8 name).length ≤ 253 && 2 ≤ labels.length && labels.all fun label =>
    label ≠ [] && (toUtf8 label).length ≤ 63 && label.head? ≠ some '-' &&
      label.getLast? ≠ some '-' && label.all fun c => isAsciiAlphanumeric c || c = '-'

/-- The name as it is kept: without dots at its end, in lower case. -/
def hostname (typed : Str) : Str :=
  toAsciiLowercase ((trim typed).reverse.dropWhile (· = '.')).reverse

/-- What was typed, without a scheme and a path, if it is a host name. -/
def acceptDomain (typed : Str) : Option Str :=
  if validDomain (hostname typed) then some (hostname typed) else none

/-- The name that is given, or asked for until it is one. -/
def askDomain (asked : Option Str) : Wizard Str :=
  match asked with
  | some typed =>
      match acceptDomain typed with
      | some domain => pure domain
      | none => stop ("'" ++ String.ofList (hostname typed) ++ "' is not a hostname")
  | none => converse (readUntil acceptDomain (.error "no name given"))

/-- Look the name up, and ask what to do as long as it is not right. Each answer may look it up
again, go on all the same, or give up; the end of the input gives up. -/
def dnsFrom (address : Option IpAddr) : List Typed → List (List IpAddr) →
    Except String Bool × List Typed
  | answers, lookups =>
      if (address.any fun ip => ip ∈ lookups.headD []) then (.ok true, answers)
      else
        match answers with
        | [] => (.ok false, [])
        | .eof :: rest => (.ok false, rest)
        | .failed e :: rest => (.error ("cannot read from the terminal: " ++ e), rest)
        | .line text :: rest =>
            let a := toAsciiLowercase (trim text)
            if a = "r".toList ∨ a = "retry".toList ∨ a = [] then
              dnsFrom address rest lookups.tail
            else (.ok (a = "c".toList ∨ a = "continue".toList), rest)

/-- Whether to go on: the name resolves to this machine, or the person goes on all the same. -/
def dns : Wizard Bool := do
  let host ← get
  if ← yesNo true then converse fun answers => dnsFrom host.publicIp answers host.lookups
  else converse fun answers => dnsFrom none answers host.lookups

/-! ## 3. The configuration -/

/-- Where the file goes, and what to run to switch it on, for this layout. -/
def target (disk : Disk) : Kind → String × List (List String)
  | .nginx =>
      if disk.isDir "/etc/nginx/http.d" then ("/etc/nginx/http.d/breeze-core.conf", [])
      else ("/etc/nginx/conf.d/breeze-core.conf", [])
  | .apache =>
      if disk.isDir "/etc/apache2" then
        ("/etc/apache2/sites-available/breeze-core.conf",
          [["a2enmod", "-q", "proxy", "proxy_http", "headers"], ["a2ensite", "-q", "breeze-core"]])
      else ("/etc/httpd/conf.d/breeze-core.conf", [])
  | .caddy => ("/etc/caddy/Caddyfile", [])

/-- Where certbot's Apache plugin puts the HTTPS half of a configuration. -/
def leSslPath (conf : String) : String :=
  let text := conf.toList
  let suffix := ".conf".toList
  let stem := if suffix <:+ text then text.take (text.length - suffix.length) else text
  String.ofList stem ++ "-le-ssl.conf"

example : leSslPath "/etc/apache2/sites-available/breeze-core.conf" =
    "/etc/apache2/sites-available/breeze-core-le-ssl.conf" := by decide +kernel

/-- Let the server check the configuration that was written. -/
def validate (kind : Kind) : Wizard Bool := do
  let host ← get
  runCmd
    (match kind with
      | .nginx => ["nginx", "-t"]
      | .apache =>
          [if host.disk.onPath "apache2ctl" then "apache2ctl" else "apachectl", "configtest"]
      | .caddy =>
          ["caddy", "validate", "--config", "/etc/caddy/Caddyfile", "--adapter", "caddyfile"])
    false

/-- The name of the service, which is Apache's own by the distribution. -/
def serviceName (disk : Disk) : Kind → String
  | .nginx => "nginx"
  | .apache => if disk.isDir "/etc/apache2" then "apache2" else "httpd"
  | .caddy => "caddy"

/-- Try one command, and require another when it fails. -/
def runOr (command other : List String) : Wizard Unit := do
  if ← runCmd command false then pure ()
  else do
    let _ ← runCmd other true
    pure ()

/-- Reload, or start it if it was not running, through the init system. Without one the server's
own command does it, and only the command that starts it has to succeed. -/
def reload (kind : Kind) : Wizard Unit := do
  let host ← get
  let service := serviceName host.disk kind
  if host.disk.isDir "/run/systemd/system" then do
    let _ ← runCmd ["systemctl", "enable", "--now", service] true
    let _ ← runCmd ["systemctl", "reload", service] true
    pure ()
  else if host.disk.isDir "/run/openrc" then do
    let _ ← runCmd ["rc-update", "add", service, "default"] false
    runOr ["rc-service", service, "reload"] ["rc-service", service, "start"]
  else
    match kind with
    | .nginx => runOr ["nginx", "-s", "reload"] ["nginx"]
    | .apache =>
        let ctl := if host.disk.onPath "apache2ctl" then "apache2ctl" else "apachectl"
        runOr [ctl, "-k", "graceful"] [ctl, "-k", "start"]
    | .caddy =>
        runOr ["caddy", "reload", "--config", "/etc/caddy/Caddyfile", "--adapter", "caddyfile"]
          ["caddy", "start", "--config", "/etc/caddy/Caddyfile", "--adapter", "caddyfile"]

/-- The configuration to be written. -/
def configurationText (kind : Kind) (domain port : String) : String :=
  match kind with
  | .nginx => nginxConf domain port
  | .apache => apacheConf domain port
  | .caddy => caddyBlock domain port

/-- The whole file.  The Caddyfile is one file for every site, so the block is added at its
end. -/
def wholeFile (kind : Kind) (existing text : String) : String :=
  if kind = .caddy then
    existing ++ (if existing = "" ∨ existing.toList.getLast? = some '\n' then "" else "\n") ++ text
  else text

/-- One of the commands that switch a site on. -/
def enable (command : List String) : Wizard Unit := do
  let undo := if command.head? = some "a2ensite" then ["a2dissite", "-q", "breeze-core"] else []
  let _ ← runCmd command true
  if undo = [] then pure ()
  else modify fun host => (host.stand (.ran command undo)).record (.ran command undo)

/-- Write the configuration, let the server check it, and load it, or take everything back if the
check fails. -/
def configure (kind : Kind) (domain port : String) : Wizard (Option Unit) := do
  let host ← get
  let path := (target host.disk kind).1
  let existing := (host.disk.files path).getD ""
  if kind = .caddy ∧ MARK_START.toList <:+: existing.toList then
    stop (path ++ " already has a Breeze Core block; remove it, or run --undo")
  else do
    if ← yesNo true then do
      writeFile path (wholeFile kind existing (configurationText kind domain port))
      (target host.disk kind).2.forM enable
      -- Checked before anything is reloaded.
      if ← validate kind then do
        reload kind
        pure (some ())
      else do
        rollback
        pure none
    else pure none

/-! ## 4. The certificate -/

/-- certbot adds a file of its own for Apache, and enables it. Both are recorded where the file is
there afterwards and was not before. -/
def recordCertbot (leSsl : Option String) : Wizard Unit :=
  match leSsl with
  | none => pure ()
  | some path =>
      modify fun host =>
        if host.dryRun ∨ (host.disk.files path).isNone then host
        else
          let host := (host.stand (.created path)).record (.created path)
          if host.disk.isDir "/etc/apache2" then
            let step := Step.ran ["a2ensite", "breeze-core-le-ssl"]
              ["a2dissite", "-q", "breeze-core-le-ssl"]
            (host.stand step).record step
          else host

/-- Run certbot if a certificate is wanted, and note what it adds. Whether its file was there is
looked up in front of the run, as afterwards it cannot be told. -/
def startCertbot (kind : Kind) (domain : String) : Wizard Bool := do
  if ← yesNo true then do
    let host ← get
    let leSsl :=
      if kind = .apache then
        let path := leSslPath (target host.disk kind).1
        if (host.disk.files path).isSome then none else some path
      else none
    let plugin := if kind = .nginx then "--nginx" else "--apache"
    let ok ← runCmd ["certbot", plugin, "-d", domain, "--redirect", "--hsts"] false
    modify fun host => if host.dryRun then host else { host with disk := host.certbot host.disk }
    recordCertbot leSsl
    pure ok
  else pure false

/-- True when HTTPS is, or will be, set up. Caddy does it by itself, and where certbot is not
installed the person is asked whether to install it. -/
def certificate (kind : Kind) (domain : String) : Wizard Bool := do
  let host ← get
  if kind = .caddy then pure true
  else if host.disk.onPath "certbot" then startCertbot kind domain
  else
    match host.pm with
    | none => pure false
    | some pm => do
        if ← yesNo true then do
          install (pm.install (pm.certbotPackages kind))
          startCertbot kind domain
        else pure false

/-! ## 5. Breeze Core behind it -/

/-- What is behind a prefix, where the text has it. -/
def stripPrefix (lead text : Str) : Option Str :=
  if lead <+: text then some (text.drop lead.length) else none

/-- A text without the quotes around it. -/
def unquoted (text : Str) : Str :=
  let quote := fun c => decide (c = '\x22')
  ((trim text).dropWhile quote).reverse.dropWhile quote |>.reverse

/-- The words of a text. -/
def words (text : Str) : List Str := (text.splitOnP isWhitespace).filter (· ≠ [])

/-- The value of a variable: of the first line that sets it, without quotes, and none if it is
empty. -/
def envValue (env key : Str) : Option Str :=
  (((linesOf env).findSome? (stripPrefix (key ++ "=".toList))).map unquoted).filter (· ≠ [])

/-- One line of the settings. -/
def editLine (keepLan : Bool) (line : Str) : Str :=
  if "BREEZE_HOST=".toList <+: line then
    if keepLan then line else "BREEZE_HOST=127.0.0.1".toList
  else
    match stripPrefix "BREEZE_OPTS=".toList line with
    | none => line
    | some rest =>
        let opts := unquoted rest
        if "--behind-proxy".toList ∈ words opts then line
        else if opts = [] then "BREEZE_OPTS=--behind-proxy".toList
        else "BREEZE_OPTS=\"".toList ++ opts ++ " --behind-proxy\"".toList

/-- What one line makes of its options. -/
def editOpts (rest : Str) : Str :=
  if "--behind-proxy".toList ∈ words (unquoted rest) then rest
  else if unquoted rest = [] then "--behind-proxy".toList
  else "\"".toList ++ unquoted rest ++ " --behind-proxy\"".toList

/-- BREEZE_HOST to loopback, unless keeping the LAN bind, and --behind-proxy into
BREEZE_OPTS, keeping every other line and comment as it was. -/
def editEnv (env : Str) (keepLan : Bool) : Str :=
  let lines := linesOf env
  let sawHost := lines.any fun line => "BREEZE_HOST=".toList <+: line
  let sawOpts := lines.any fun line => "BREEZE_OPTS=".toList <+: line
  let edited := lines.map (editLine keepLan) ++
    (if !sawHost && !keepLan then ["BREEZE_HOST=127.0.0.1".toList] else []) ++
    (if !sawOpts then ["BREEZE_OPTS=--behind-proxy".toList] else [])
  List.intercalate "\n".toList edited ++ "\n".toList

example : editEnv "# a\nBREEZE_HOST=192.168.1.10\nBREEZE_OPTS=\n".toList false =
      "# a\nBREEZE_HOST=127.0.0.1\nBREEZE_OPTS=--behind-proxy\n".toList ∧
    editEnv "BREEZE_OPTS=--foo\n".toList true =
      "BREEZE_OPTS=\"--foo --behind-proxy\"\n".toList := by decide +kernel

/-- The file of the service's settings. -/
def Host.envPath (host : Host) : String := host.configDir ++ "/breeze-core.env"

/-- Restart the service with whatever starts services here; it may fail. -/
def restartBreeze : Wizard Unit := do
  let host ← get
  if host.disk.isDir "/run/systemd/system" then do
    let _ ← runCmd ["systemctl", "try-restart", "breeze-core"] false
    pure ()
  else if host.disk.isDir "/run/openrc" then do
    let _ ← runCmd ["rc-service", "breeze-core", "restart"] false
    pure ()
  else pure ()

/-- Offer to make the service listen behind the proxy, and to restart it. -/
def behindProxy (env : Str) : Wizard Unit := do
  let host ← get
  let onlyProxy ← yesNo true
  if ← yesNo true then do
    writeFile host.envPath (String.ofList (editEnv env !onlyProxy))
    restartBreeze
  else pure ()

/-! ## The whole run -/

/-- Reload the server that was set up, if what is left is right. -/
def reloadValid (server : Option Kind) : Wizard Unit :=
  match server with
  | none => pure ()
  | some kind => do
      if ← validate kind then reload kind
      else pure ()

/-- What follows once the steps are taken back.  The journal goes last. -/
def finish (dryRun : Bool) (journal : Journal) : Wizard Nat := do
  reloadValid journal.server
  restartBreeze
  let host ← get
  if dryRun then pure 0
  else
    match ← nextIo .remove host.journalPath with
    | .done => do
        modify fun host => { host with saved := none }
        pure 0
    | .failed e _ => stop ("cannot remove " ++ host.journalPath ++ ": " ++ e)

/-- Play the saved journal backwards. It takes root, unless it is a dry run, a journal that can be
read, and a yes; and the journal goes when all of it was taken back. -/
def undo (dryRun : Bool) : Wizard Nat := do
  let host ← get
  match host.saved with
  | none => pure 0
  | some (.error e) => stop (host.journalPath ++ " is unreadable: " ++ e)
  | some (.ok journal) =>
      if !dryRun && !host.isRoot then
        stop ("undoing changes system configuration, so it needs root: " ++
          "sudo breeze-core proxy --undo")
      else do
        modify fun host => { host with dryRun := dryRun, journal := {}, pm := none }
        if ← yesNo true then do
          journal.steps.reverse.forM reverse
          finish dryRun journal
        else pure 1

/-- The options of the command line. -/
structure Options where
  dryRun : Bool := false
  undo : Bool := false
  /-- The server and the name, to skip the questions. -/
  server : Option Str := none
  domain : Option Str := none

/-- What follows once the name is known. -/
def setUp (kind : Kind) (domain : String) (env : Str) : Wizard Nat := do
  let port := String.ofList ((envValue env "BREEZE_PORT".toList).getD "8420".toList)
  match ← configure kind domain port with
  | none => do
      saveJournal
      pure 1
  | some () => do
      let _ ← certificate kind domain
      behindProxy env
      saveJournal
      pure 0

/-- The whole wizard: what server, under what name, and then the parts of it in their order. The
configuration is written only when the name has been looked up. -/
def wizard (options : Options) : Wizard Nat := do
  modify fun host =>
    { host with dryRun := options.dryRun, journal := {}, pm := Pm.detect host.disk }
  let host ← get
  let env := ((host.disk.files host.envPath).getD "").toList
  match ← chooseServer options.server with
  | none => pure 1
  | some kind => do
      modify fun host => { host with journal := { host.journal with server := some kind } }
      let domain := String.ofList (← askDomain options.domain)
      modify fun host => { host with journal := { host.journal with domain := domain } }
      if ← dns then setUp kind domain env
      else pure 1

/-- Undo, or set up; only root may change anything, and anyone may look. -/
def run (options : Options) : Wizard Nat := do
  let host ← get
  if options.undo then undo options.dryRun
  else if !options.dryRun && !host.isRoot then
    stop ("this changes the web server's configuration and Breeze Core's own, so it needs root: " ++
      "run it with sudo. To see everything it would do first, as anyone: " ++
      "breeze-core proxy --dry-run")
  else if host.saved.isSome then pure 1
  else wizard options

/-! ## What can go wrong -/

/-- The commands that have to succeed: those that install something, load a configuration or
switch a site on or off. -/
def needed (command : List String) : Bool :=
  command.headD "" ∈
      ["apt-get", "dnf", "pacman", "apk", "zypper", "a2enmod", "a2ensite", "a2dissite"] ∨
    command.take 2 ∈ [["systemctl", "enable"], ["systemctl", "reload"], ["caddy", "start"]] ∨
    command = ["nginx"] ∨ command.drop 2 = ["start"]

/-- What the machine did is a failure. -/
def Exchange.bad : Exchange → Bool
  | .file _ _ fate => fate ≠ .done
  | .ran _ (.notStarted _) => true
  | .ran command (.exited success _) => !success && needed command
  | .typed (.failed _) => true
  | .typed _ => false

/-- Something was written, in whole or in part. -/
def Exchange.writes : Exchange → Bool
  | .file .write _ .done => true
  | .file .write _ (.failed _ left) => left.isSome
  | _ => false

/-- Nothing fails once something was written. -/
def goesWell (written : Bool) : List Exchange → Bool
  | [] => true
  | x :: rest => !((written || x.writes) && x.bad) && goesWell (written || x.writes) rest

/-- One exchange more: it must not fail, if anything was written before it or by it. -/
theorem goesWell_append (written : Bool) (xs : List Exchange) (x : Exchange) :
    goesWell written (xs ++ [x]) =
      (goesWell written xs && !((written || xs.any Exchange.writes || x.writes) && x.bad)) := by
  induction xs generalizing written with
  | nil => simp [goesWell]
  | cons y rest ih =>
      simp only [List.cons_append, goesWell, ih, List.any_cons, Bool.or_assoc, Bool.and_assoc]

/-! ## Running commands -/

/-- A property that a command which does not fail leaves alone, and one that a run has when a
command fails. -/
structure Commanded (P E : Host → Prop) : Prop where
  fine : ∀ host command, P host →
    (Exchange.ran command (host.commands.headD succeeds)).bad = false →
      P (host.spendCommand command)
  bad : ∀ host command, P host →
    (Exchange.ran command (host.commands.headD succeeds)).bad = true →
      E (host.spendCommand command)

section

variable {P E : Host → Prop}

/-- A command that is answered well keeps what is so, and one that is answered badly leaves
trouble. -/
theorem meets_nextCommand (h : Commanded P E) (command : List String) :
    Meets P (nextCommand command)
      (fun fate host =>
        ((Exchange.ran command fate).bad = false → P host) ∧
          ((Exchange.ran command fate).bad = true → E host)) E :=
  fun host hP => ⟨h.fine host command hP, h.bad host command hP⟩

/-- So does running a command, where the code demands success of just those the condition demands
it of. -/
theorem meets_runCmd (h : Commanded P E) {command : List String} {required : Bool}
    (hneeded : needed command = required) :
    Meets P (runCmd command required) (fun _ => P) E := by
  unfold runCmd
  refine Meets.bind Meets.get fun host => ?_
  split
  next => exact Meets.pure fun _ h => h.2
  next =>
    refine Meets.bind ((meets_nextCommand h command).weaken (fun _ h => h.2) fun _ _ h => h)
      fun fate => ?_
    cases fate with
    | notStarted e => exact fun host' hfate => hfate.2 rfl
    | exited success status =>
        dsimp only
        split
        next hfailed =>
          refine fun host' hfate => hfate.2 ?_
          simpa [Exchange.bad, hneeded] using hfailed
        next hgood =>
          refine Meets.pure fun _ hfate => hfate.1 ?_
          simpa [Exchange.bad, hneeded] using hgood

/-- The check of the configuration is a command that may fail. -/
theorem meets_validate (h : Commanded P E) (kind : Kind) :
    Meets P (validate kind) (fun _ => P) E := by
  refine Meets.bind Meets.get fun host => ?_
  refine (meets_runCmd h ?_).weaken (fun _ h => h.2) fun _ _ h => h
  cases kind with
  | nginx => rfl
  | apache => dsimp only; split <;> rfl
  | caddy => rfl

/-- Of a command and its substitute, only the substitute has to succeed. -/
theorem meets_runOr (h : Commanded P E) {command other : List String}
    (hcommand : needed command = false) (hother : needed other = true) :
    Meets P (runOr command other) (fun _ => P) E := by
  unfold runOr
  refine Meets.bind (meets_runCmd h hcommand) fun ok => ?_
  split
  next => exact Meets.pure fun _ h => h
  next => exact Meets.bind (meets_runCmd h hother) fun _ => Meets.pure fun _ h => h

/-- Reloading is such a pair, or has to succeed, by the kind of the server. Under systemd and
OpenRC the command is chosen by what the host has, and without either the server reloads
itself. -/
theorem meets_reload (h : Commanded P E) (kind : Kind) :
    Meets P (reload kind) (fun _ => P) E := by
  unfold reload
  refine Meets.bind (Meets.get.weaken (fun _ h => h) fun _ _ h => h.2) fun host => ?_
  dsimp only
  split
  next =>
    refine Meets.bind (meets_runCmd h rfl) fun _ => ?_
    exact Meets.bind (meets_runCmd h rfl) fun _ => Meets.pure fun _ h => h
  split
  next =>
    have hadd : needed ["rc-update", "add", serviceName host.disk kind, "default"] = false := by
      simp [needed]
    refine Meets.bind (meets_runCmd h hadd) fun _ => ?_
    exact meets_runOr h rfl rfl
  next =>
    cases kind with
    | nginx => exact meets_runOr h rfl rfl
    | apache =>
        dsimp only
        split
        next => exact meets_runOr h rfl rfl
        next => exact meets_runOr h rfl rfl
    | caddy => exact meets_runOr h rfl rfl

/-- Reloading, if the configuration is valid. -/
theorem meets_reloadValid (h : Commanded P E) (server : Option Kind) :
    Meets P (reloadValid server) (fun _ => P) E := by
  unfold reloadValid
  cases server with
  | none => exact Meets.pure fun _ h => h
  | some kind =>
      refine Meets.bind (meets_validate h kind) fun ok => ?_
      split
      next => exact meets_reload h kind
      next => exact Meets.pure fun _ h => h

/-- Restarting the service is a command that may fail. -/
theorem meets_restartBreeze (h : Commanded P E) :
    Meets P restartBreeze (fun _ => P) E := by
  unfold restartBreeze
  refine Meets.bind (Meets.get.weaken (fun _ h => h) fun _ _ h => h.2) fun host => ?_
  split
  next => exact Meets.bind (meets_runCmd h rfl) fun _ => Meets.pure fun _ h => h
  split
  next => exact Meets.bind (meets_runCmd h rfl) fun _ => Meets.pure fun _ h => h
  next => exact Meets.pure fun _ h => h

end

end BreezeCli
