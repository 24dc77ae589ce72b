import Bento.Library.Nft

/-! The text of a script, and the grammar that reads it back. A script is read in three
steps: characters become tokens, the tokens of a line become one statement, and the
statements are put together into tables. -/

namespace Bento.Library.Nft
open Decimal Ipv4

def ConnState.text : ConnState → Text
  | .new => "new".toList
  | .established => "established".toList
  | .related => "related".toList

def IcmpType.text : IcmpType → Text
  | .echoRequest => "echo-request".toList
  | .destinationUnreachable => "destination-unreachable".toList
  | .timeExceeded => "time-exceeded".toList

def nameText (name : Text) : Text := '"' :: name ++ ['"']

def Cidr.text : Cidr → Text
  | .host address => Ipv4.text address
  | .net address bits => Ipv4.text address ++ '/' :: Nat.toDigits 10 bits

def Ports.text : Ports → Text
  | .one port => Nat.toDigits 10 port.toNat
  | .range first last => Nat.toDigits 10 first.toNat ++ '-' :: Nat.toDigits 10 last.toNat

def Operand.text {α : Type} (write : α → Text) : Operand α → Text
  | .single item => write item
  | .set items => "\x7b ".toList ++ List.intercalate ", ".toList (items.map write) ++ " \x7d".toList

def signText (negated : Bool) : Text := if negated then "!= ".toList else []

def Clause.text : Clause → Text
  | .iifname negated names => "iifname ".toList ++ signText negated ++ names.text nameText
  | .oifname negated names => "oifname ".toList ++ signText negated ++ names.text nameText
  | .saddr negated ranges => "ip saddr ".toList ++ signText negated ++ ranges.text Cidr.text
  | .daddr negated ranges => "ip daddr ".toList ++ signText negated ++ ranges.text Cidr.text
  | .dport ports => "tcp dport ".toList ++ ports.text Ports.text
  | .icmpType types => "icmp type ".toList ++ types.text IcmpType.text
  | .ctState states => "ct state ".toList ++ List.intercalate [','] (states.map ConnState.text)

def Verdict.text : Verdict → Text
  | .accept => "accept".toList
  | .drop => "drop".toList
  | .masquerade => "masquerade".toList

def Rule.text (rule : Rule) : Text := rule.clauses.flatMap (·.text ++ [' ']) ++ rule.verdict.text

def Item.text : Item → Text
  | .comment remark => "\t\t# ".toList ++ remark ++ ['\n']
  | .rule written => "\t\t".toList ++ written.text ++ ['\n']

def Kind.text : Kind → Text
  | .filter => "filter".toList
  | .nat => "nat".toList

def Hook.text : Hook → Text
  | .output => "output".toList
  | .input => "input".toList
  | .forward => "forward".toList
  | .postrouting => "postrouting".toList

def Priority.text : Priority → Text
  | .filter => "filter".toList
  | .srcnat => "srcnat".toList

def Policy.text : Policy → Text
  | .accept => "accept".toList
  | .drop => "drop".toList

def Base.text (base : Base) : Text :=
  "\t\ttype ".toList ++ base.kind.text ++ " hook ".toList ++ base.hook.text ++ " priority ".toList ++
    base.priority.text ++ "; policy ".toList ++ base.policy.text ++ ";\n".toList

def Chain.text (chain : Chain) : Text :=
  "\tchain ".toList ++ chain.name ++ " \x7b\n".toList ++ chain.base.text ++
    chain.body.flatMap Item.text ++ "\t\x7d\n".toList

def Command.text : Command → Text
  | .comment remark => "# ".toList ++ remark ++ ['\n']
  | .addTable name => "add table inet ".toList ++ name ++ ['\n']
  | .deleteTable name => "delete table inet ".toList ++ name ++ ['\n']
  | .table name chains => "table inet ".toList ++ name ++ " \x7b\n".toList ++
    chains.flatMap Chain.text ++ "\x7d\n".toList

def scriptText (commands : List Command) : Text := commands.flatMap Command.text

inductive Token where
  | word (text : Text)
  | quoted (text : Text)
  | sym (char : Char)
deriving DecidableEq

def isWordChar (char : Char) : Bool :=
  char.isAlphanum || char = '.' || char = '/' || char = '-' || char = '_' || char = '!' || char = '='

inductive Mode where
  | plain (pending : Text)
  | quoted (pending : Text)
  | comment
deriving DecidableEq

def flush (pending : Text) : List Token := if pending = [] then [] else [.word pending]

def Mode.step : Mode → Char → List Token × Mode
  | .plain pending, char =>
    if isWordChar char then ([], .plain (pending ++ [char]))
    else if char = '"' then (flush pending, .quoted [])
    else if char = '#' then (flush pending, .comment)
    else if char = ' ' || char = '\t' then (flush pending, .plain [])
    else (flush pending ++ [.sym char], .plain [])
  | .quoted pending, char =>
    if char = '"' then ([.quoted pending], .plain []) else ([], .quoted (pending ++ [char]))
  | .comment, char => if char = '\n' then ([.sym '\n'], .plain []) else ([], .comment)

def scan : Mode → Text → List Token × Mode
  | mode, [] => ([], mode)
  | mode, char :: rest =>
    ((mode.step char).1 ++ (scan (mode.step char).2 rest).1, (scan (mode.step char).2 rest).2)

def tokens (source : Text) : Option (List Token) :=
  match scan (.plain []) source with
  | (found, .plain pending) => some (found ++ flush pending)
  | (found, .comment) => some found
  | (_, .quoted _) => none

def readItems {α : Type} (item : Token → Option α) : List Token → Option (List α × List Token)
  | token :: .sym ',' :: rest => do
    let first ← item token
    let (more, rest) ← readItems item rest
    some (first :: more, rest)
  | token :: .sym '\x7d' :: rest => do
    let last ← item token
    some ([last], rest)
  | _ => none

def Operand.read {α : Type} (item : Token → Option α) : List Token → Option (Operand α × List Token)
  | .sym '\x7b' :: rest => (readItems item rest).map fun (items, rest) => (.set items, rest)
  | token :: rest => (item token).map fun item => (.single item, rest)
  | [] => none

def isInterfaceName (name : Text) : Bool :=
  1 ≤ name.length && name.length ≤ 15 && name.all fun char => char.isAlphanum || char = '_' || char = '.' || char = '-'

def readName : Token → Option Text
  | .quoted name => if isInterfaceName name then some name else none
  | _ => none

def readNumber (limit : Nat) (digits : Text) : Option Nat :=
  if digits = [] then none else (read 0 digits).filter (· ≤ limit)

def readCidr : Token → Option Cidr
  | .word source =>
    match splitOnce '/' source with
    | some (address, bits) => do some (.net (← Ipv4.parse address) (← readNumber 32 bits))
    | none => (Ipv4.parse source).map .host
  | _ => none

def readPort (digits : Text) : Option UInt16 := (readNumber 65535 digits).map UInt16.ofNat

def readPorts : Token → Option Ports
  | .word source =>
    match splitOnce '-' source with
    | some (first, last) => do some (.range (← readPort first) (← readPort last))
    | none => (readPort source).map .one
  | _ => none

def readWord {α : Type} (write : α → Text) (values : List α) : Token → Option α
  | .word source => values.find? (write · = source)
  | _ => none

def readIcmpType : Token → Option IcmpType :=
  readWord IcmpType.text [.echoRequest, .destinationUnreachable, .timeExceeded]

def readState : Token → Option ConnState := readWord ConnState.text [.new, .established, .related]

def readVerdict : Token → Option Verdict := readWord Verdict.text [.accept, .drop, .masquerade]

def readStates : List Token → Option (List ConnState × List Token)
  | token :: .sym ',' :: rest => do
    let first ← readState token
    let (more, rest) ← readStates rest
    some (first :: more, rest)
  | token :: rest => do
    let last ← readState token
    some ([last], rest)
  | [] => none

def readSign : List Token → Bool × List Token
  | token :: rest => if token = .word "!=".toList then (true, rest) else (false, token :: rest)
  | [] => (false, [])

def readMatch {α : Type} (item : Token → Option α) (clause : Bool → Operand α → Clause) (source : List Token) :
    Option (Clause × List Token) :=
  let (negated, rest) := readSign source
  (Operand.read item rest).map fun (operand, rest) => (clause negated operand, rest)

def readPlain {α : Type} (item : Token → Option α) (clause : Operand α → Clause) (source : List Token) :
    Option (Clause × List Token) :=
  (Operand.read item source).map fun (operand, rest) => (clause operand, rest)

def Clause.read : List Token → Option (Clause × List Token)
  | key :: rest =>
    if key = .word "iifname".toList then readMatch readName .iifname rest
    else if key = .word "oifname".toList then readMatch readName .oifname rest
    else match rest with
      | field :: rest =>
        if key = .word "ip".toList then
          if field = .word "saddr".toList then readMatch readCidr .saddr rest
          else if field = .word "daddr".toList then readMatch readCidr .daddr rest
          else none
        else if key = .word "tcp".toList ∧ field = .word "dport".toList then readPlain readPorts .dport rest
        else if key = .word "icmp".toList ∧ field = .word "type".toList then readPlain readIcmpType .icmpType rest
        else if key = .word "ct".toList ∧ field = .word "state".toList then
          (readStates rest).map fun (states, rest) => (.ctState states, rest)
        else none
      | [] => none
  | [] => none

def Rule.read : Nat → List Token → Option Rule
  | 0, _ => none
  | _ + 1, [last] => (readVerdict last).map fun verdict => ⟨[], verdict⟩
  | fuel + 1, source => do
    let (clause, rest) ← Clause.read source
    let rule ← Rule.read fuel rest
    some { rule with clauses := clause :: rule.clauses }

inductive Line where
  | addTable (name : Text)
  | deleteTable (name : Text)
  | openTable (name : Text)
  | openChain (name : Text)
  | base (base : Base)
  | rule (rule : Rule)
  | close
deriving DecidableEq

def readTable : List Token → Option (Text × List Token)
  | first :: second :: .word name :: rest =>
    if first = .word "table".toList ∧ second = .word "inet".toList then some (name, rest) else none
  | _ => none

def Base.read : List Token → Option Base
  | [type, kind, hook, hooked, priority, ranked, .sym ';', policy, decided, .sym ';'] =>
    if type = .word "type".toList ∧ hook = .word "hook".toList ∧ priority = .word "priority".toList ∧
        policy = .word "policy".toList then do
      some ⟨← readWord Kind.text [.filter, .nat] kind,
        ← readWord Hook.text [.output, .input, .forward, .postrouting] hooked,
        ← readWord Priority.text [.filter, .srcnat] ranked, ← readWord Policy.text [.accept, .drop] decided⟩
    else none
  | _ => none

def Line.read : List Token → Option Line
  | [] => none
  | key :: rest =>
    if key = .sym '\x7d' then if rest = [] then some .close else none
    else if key = .word "add".toList then
      match readTable rest with
      | some (name, []) => some (.addTable name)
      | _ => none
    else if key = .word "delete".toList then
      match readTable rest with
      | some (name, []) => some (.deleteTable name)
      | _ => none
    else if key = .word "table".toList then
      match readTable (key :: rest) with
      | some (name, [.sym '\x7b']) => some (.openTable name)
      | _ => none
    else if key = .word "chain".toList then
      match rest with
      | [.word name, .sym '\x7b'] => some (.openChain name)
      | _ => none
    else if key = .word "type".toList then (Base.read (key :: rest)).map .base
    else (Rule.read (key :: rest).length (key :: rest)).map .rule

/-- What has been read of a script, and which block the next line stands in. -/
inductive Context where
  | top (done : List Command)
  | inTable (done : List Command) (table : Text) (chains : List Chain)
  | opened (done : List Command) (table : Text) (chains : List Chain) (chain : Text)
  | inChain (done : List Command) (table : Text) (chains : List Chain) (chain : Chain)

def Context.step : Context → Line → Option Context
  | .top done, .addTable name => some (.top (done ++ [.addTable name]))
  | .top done, .deleteTable name => some (.top (done ++ [.deleteTable name]))
  | .top done, .openTable name => some (.inTable done name [])
  | .inTable done table chains, .openChain name => some (.opened done table chains name)
  | .inTable done table chains, .close => some (.top (done ++ [.table table chains]))
  | .opened done table chains name, .base base => some (.inChain done table chains ⟨name, base, []⟩)
  | .inChain done table chains chain, .rule rule =>
    some (.inChain done table chains { chain with body := chain.body ++ [.rule rule] })
  | .inChain done table chains chain, .close => some (.inTable done table (chains ++ [chain]))
  | _, _ => none

def assemble (lines : List Line) : Option (List Command) :=
  match lines.foldlM Context.step (.top []) with
  | some (.top done) => some done
  | _ => none

def parse (source : Text) : Option (List Command) := do
  let found ← tokens source
  let lines ← ((found.splitOn (.sym '\n')).filter (· ≠ [])).mapM Line.read
  assemble lines

end Bento.Library.Nft
