/-
What the dispatcher reads off a command and its arguments before it runs: the check of a command to
be queued, whether it switches the database, its keys and whether it only reads.
-/

import Wedb.KvDispatch

namespace Wedb.Server

open Resp

/-- The options of ZADD that its parser tells apart. -/
structure ZAddOpt where
  nx : Bool := false
  xx : Bool := false
  gt : Bool := false
  lt : Bool := false
  ch : Bool := false
  incr : Bool := false

def parseZaddOptions (options : ZAddOpt) : List Bytes → Except Bytes (ZAddOpt × List Bytes)
  | [] => .ok (options, [])
  | word :: rest =>
    if eqIgnoreAsciiCase word (bytesOf "NX") then
      if options.nx || options.xx then .error syntaxError
      else parseZaddOptions { options with nx := true } rest
    else if eqIgnoreAsciiCase word (bytesOf "XX") then
      if options.nx || options.xx then .error syntaxError
      else parseZaddOptions { options with xx := true } rest
    else if eqIgnoreAsciiCase word (bytesOf "GT") then
      if options.gt || options.lt || options.nx then .error syntaxError
      else parseZaddOptions { options with gt := true } rest
    else if eqIgnoreAsciiCase word (bytesOf "LT") then
      if options.gt || options.lt || options.nx then .error syntaxError
      else parseZaddOptions { options with lt := true } rest
    else if eqIgnoreAsciiCase word (bytesOf "CH") then
      parseZaddOptions { options with ch := true } rest
    else if eqIgnoreAsciiCase word (bytesOf "INCR") then
      if options.incr then .error syntaxError
      else parseZaddOptions { options with incr := true } rest
    else .ok (options, word :: rest)

def everySecond {α : Type} : List α → List α
  | [] => []
  | [item] => [item]
  | item :: _ :: rest => item :: everySecond rest

def expireOptionsAccepted : List Bytes → Bool
  | [] => true
  | [word] => ["NX", "XX", "GT", "LT"].any fun name => eqIgnoreAsciiCase word (bytesOf name)
  | _ => false

def expect (condition : Bool) (text : Bytes) : Except Bytes Unit :=
  if condition then .ok () else .error text

variable (readsDouble : Bytes → Bool)

def checkScorePairs (pairs : List Bytes) : Except Bytes Unit := do
  expect (pairs ≠ [] ∧ pairs.length % 2 = 0) syntaxError
  expect ((everySecond pairs).all readsDouble) (bytesOf "ERR value is not a valid float")

def checkPopCount (token : Bytes) : Except Bytes Unit :=
  match tryReadInt token with
  | none => .error intOutOfRange
  | some count =>
    expect (0 ≤ count) (bytesOf "ERR value is out of range, must be positive")

def checkExpiry (name : String) : List Bytes → Except Bytes Unit
  | [_, time, _] =>
    expect ((tryReadLong time).any fun time => decide (0 < time))
      (bytesOf "ERR invalid expire time in '" ++ bytesOf name ++ bytesOf "' command")
  | _ => .error wrongNumArgs

def checkSyntax (cmd : RespCommand) (args : List Bytes) : Except Bytes Unit :=
  match cmd with
  | .dbsize | .time | .multi | .exec | .discard | .asking | .readonly | .readwrite | .unwatch =>
    expect (args.length = 0) wrongNumArgs
  | .ping => expect (args.length ≤ 1) wrongNumArgs
  | .echo | .select => expect (args.length = 1) wrongNumArgs
  | .get | .incr | .decr | .getdel | .ttl | .pttl | .persist | .expiretime | .pexpiretime
  | .keys | .type | .strlen | .hlen | .hgetall | .hkeys | .hvals | .llen | .scard | .smembers
  | .zcard => expect (args.length = 1) wrongNumArgs
  | .hget | .hexists | .incrby | .decrby | .incrbyfloat | .getset | .setnx | .zscore | .publish =>
    expect (args.length = 2) wrongNumArgs
  | .watch => expect (1 ≤ args.length) wrongNumArgs
  | .replicaof => expect (args.length = 2) wrongNumArgs
  | .blpop | .brpop => expect (2 ≤ args.length) wrongNumArgs
  | .blmove => expect (args.length = 5) wrongNumArgs
  | .brpoplpush => expect (args.length = 3) wrongNumArgs
  | .migrate => expect (5 ≤ args.length) wrongNumArgs
  | .clusterMigrate => expect (4 ≤ args.length) wrongNumArgs
  | .set =>
    match args with
    | _ :: _ :: options => (parseSetOptions {} options).map fun _ => ()
    | _ => .error (wrongArity "set")
  | .subscribe | .psubscribe | .pubsub => expect (1 ≤ args.length) wrongNumArgs
  | .scan => do
    expect (1 ≤ args.length) wrongNumArgs
    expect (args.length % 2 = 1) syntaxError
  | .del | .exists | .mget | .unlink | .getex => expect (1 ≤ args.length) wrongNumArgs
  | .expire | .pexpire | .expireat | .pexpireat =>
    match args with
    | _ :: amount :: options => do
      expect (tryReadLong amount).isSome intOutOfRange
      expect (expireOptionsAccepted options) syntaxError
    | _ => .error wrongNumArgs
  | .rename | .renamenx | .append | .getbit | .lindex | .rpoplpush | .zrank | .zrevrank =>
    expect (args.length = 2) wrongNumArgs
  | .mset | .msetnx => expect (2 ≤ args.length ∧ args.length % 2 = 0) wrongNumArgs
  | .setex => checkExpiry "setex" args
  | .psetex => checkExpiry "psetex" args
  | .getrange | .setrange | .setbit | .substr | .hincrby | .hincrbyfloat | .hsetnx | .lrange
  | .ltrim | .lrem | .lset | .smove | .zincrby | .zcount | .zremrangebyrank | .zremrangebyscore
  | .zremrangebylex | .zlexcount => expect (args.length = 3) wrongNumArgs
  | .linsert | .lmove => expect (args.length = 4) wrongNumArgs
  | .lpushx | .rpushx | .lpos => expect (2 ≤ args.length) wrongNumArgs
  | .lmpop => expect (3 ≤ args.length) wrongNumArgs
  | .hset => expect (3 ≤ args.length ∧ (args.length - 1) % 2 = 0) (wrongArity "hset")
  | .hmset => expect (3 ≤ args.length ∧ (args.length - 1) % 2 = 0) (wrongArity "hmset")
  | .hmget | .zrem | .zmscore => expect (2 ≤ args.length) wrongNumArgs
  | .bitcount => expect (args.length = 1 ∨ args.length = 3) syntaxError
  | .bitpos => expect (2 ≤ args.length ∧ args.length ≤ 5) (wrongArity "bitpos")
  | .bitop => expect (3 ≤ args.length) (wrongArity "bitop")
  | .bitopAnd | .bitopOr | .bitopXor | .bitopNot | .bitopDiff =>
    expect (2 ≤ args.length) (wrongArity "bitop")
  | .role | .save => expect (args.length = 0) wrongNumArgs
  | .lastsave => expect (args.length ≤ 1) wrongNumArgs
  | .bgsave => expect (args.length ≤ 2) wrongNumArgs
  | .hello => expect (args.length ≤ 6) wrongNumArgs
  | .pfadd => expect (1 ≤ args.length) (wrongArity "pfadd")
  | .pfcount => expect (1 ≤ args.length) (wrongArity "pfcount")
  | .pfmerge => expect (1 ≤ args.length) (wrongArity "pfmerge")
  | .spop | .zpopmin | .zpopmax => expect (1 ≤ args.length ∧ args.length ≤ 2) wrongNumArgs
  | .sinter | .sunion | .sdiff => expect (1 ≤ args.length) wrongNumArgs
  | .sinterstore | .sunionstore | .sdiffstore | .sintercard =>
    expect (2 ≤ args.length) wrongNumArgs
  | .srandmember => expect (1 ≤ args.length ∧ args.length ≤ 2) wrongNumArgs
  | .zrandmember => expect (1 ≤ args.length ∧ args.length ≤ 3) wrongNumArgs
  | .zunion | .zinter | .zdiff => expect (2 ≤ args.length) wrongNumArgs
  | .zunionstore | .zinterstore | .zdiffstore => expect (3 ≤ args.length) wrongNumArgs
  | .zintercard => expect (2 ≤ args.length) wrongNumArgs
  | .zmpop => expect (3 ≤ args.length) wrongNumArgs
  | .bzpopmin | .bzpopmax => expect (2 ≤ args.length) wrongNumArgs
  | .bzmpop | .zrangestore => expect (4 ≤ args.length) wrongNumArgs
  | .hdel | .lpush | .rpush | .sadd | .srem | .sismember => expect (2 ≤ args.length) wrongNumArgs
  | .rpop | .lpop =>
    match args with
    | [_] => .ok ()
    | [_, count] => checkPopCount count
    | _ => .error wrongNumArgs
  | .zadd =>
    match parseZaddOptions {} (args.drop 1) with
    | .error _ => .error syntaxError
    | .ok (_, pairs) => checkScorePairs readsDouble pairs
  | .zrange =>
    match args with
    | _ :: start :: stop :: _ =>
      expect ((tryReadInt start).isSome && (tryReadInt stop).isSome) intOutOfRange
    | _ => .error (wrongArity "zrange")
  | .hscan | .sscan | .zscan | .smismember | .httl | .hpersist =>
    expect (2 ≤ args.length) wrongNumArgs
  | .hexpire | .hexpireat => expect (3 ≤ args.length) wrongNumArgs
  | .ricreate => expect (1 ≤ args.length) (wrongArity "ri.create")
  | .riset => expect (args.length = 3) (wrongArity "ri.set")
  | .riget => expect (args.length = 2) (wrongArity "ri.get")
  | .vadd => expect (4 ≤ args.length) (wrongArity "vadd")
  | .vsim => expect (3 ≤ args.length) (wrongArity "vsim")
  | .vcard | .vdim | .vinfo => expect (args.length = 1) wrongNumArgs
  | .vemb | .vrem | .vismember | .vgetattr | .vlinks => expect (2 ≤ args.length) wrongNumArgs
  | .vsetattr => expect (args.length = 3) (wrongArity "vsetattr")
  | .vrandmember => expect (1 ≤ args.length ∧ args.length ≤ 2) (wrongArity "vrandmember")
  | .eval => expect (2 ≤ args.length) (wrongArity "eval")
  | .evalsha => expect (2 ≤ args.length) (wrongArity "evalsha")
  | .script => expect (1 ≤ args.length) (wrongArity "script")
  | .ridel => expect (args.length = 2) (wrongArity "ri.del")
  | .riscan => expect (4 ≤ args.length) (wrongArity "ri.scan")
  | .geoadd => expect (4 ≤ args.length) (wrongArity "geoadd")
  | .geodist => expect (3 ≤ args.length ∧ args.length ≤ 4) (wrongArity "geodist")
  | .geopos => expect (2 ≤ args.length) (wrongArity "geopos")
  | .geohash => expect (2 ≤ args.length) (wrongArity "geohash")
  | .georadius | .georadiusRo => expect (5 ≤ args.length) wrongNumArgs
  | .georadiusbymember | .georadiusbymemberRo => expect (4 ≤ args.length) wrongNumArgs
  | .geosearch => expect (6 ≤ args.length) (wrongArity "geosearch")
  | .geosearchstore => expect (7 ≤ args.length) (wrongArity "geosearchstore")
  | .rirange => expect (3 ≤ args.length) (wrongArity "ri.range")
  | .riexists => expect (args.length = 1) (wrongArity "ri.exists")
  | .riconfig => expect (args.length = 1) (wrongArity "ri.config")
  | .rimetrics => expect (args.length = 1) (wrongArity "ri.metrics")
  | _ => .ok ()

/-- `validate_command_syntax`, or nothing where it panics on ZADD without arguments. -/
def validateCommandSyntax (cmd : RespCommand) (args : List Bytes) : Option (Except Bytes Unit) :=
  if cmd = .zadd ∧ args = [] then none else some (checkSyntax readsDouble cmd args)

def isDbSwitch (cmd : RespCommand) (args : List Bytes) (activeDb : Nat) : Bool :=
  match cmd, args with
  | .select, [index] => (tryReadUlong index).any fun database => database != activeDb
  | .swapdb, _ => true
  | _, _ => false

/-- `CommandKeys`: no key, one, or several. -/
inductive CommandKeys
  | none
  | single (key : Bytes)
  | several (keys : List Bytes)

def firstTwoKeys : List Bytes → CommandKeys
  | first :: second :: _ => .several [first, second]
  | _ => .none

def storeTarget : List Bytes → Option Bytes
  | word :: target :: rest =>
    match storeTarget (target :: rest) with
    | some later => some later
    | none =>
      if eqIgnoreAsciiCase word (bytesOf "STORE") || eqIgnoreAsciiCase word (bytesOf "STOREDIST")
      then some target else none
  | _ => none

/-- The commands whose only key is their first argument. -/
def hasSingleKey : RespCommand → Bool
  | .get | .set | .incr | .decr | .incrby | .decrby | .incrbyfloat | .getset | .getdel
  | .getex | .setnx | .setex | .psetex | .substr | .expire | .ttl | .pttl | .persist
  | .expireat | .pexpireat | .pexpire | .expiretime | .pexpiretime | .type | .append | .strlen
  | .getrange | .setrange | .setbit | .getbit | .bitcount | .bitpos | .pfadd | .hset | .hget
  | .hdel | .hlen | .hgetall | .hkeys | .hvals | .hexists | .hincrby | .hincrbyfloat | .hmget
  | .hmset | .hsetnx | .hscan | .hexpire | .hexpireat | .httl | .hpersist | .lpush | .rpush
  | .lpop | .rpop | .llen | .lrange | .lindex | .ltrim | .sadd | .srem | .scard | .sismember
  | .smembers | .spop | .smismember | .sscan | .srandmember | .zadd | .zrange | .zcard
  | .zscore | .zincrby | .zcount | .zrem | .zrank | .zrevrank | .zscan | .zpopmin | .zpopmax
  | .zmscore | .zrandmember | .zrevrange | .zrangebyscore | .zrevrangebyscore | .zrangebylex
  | .zrevrangebylex | .zremrangebyrank | .zremrangebyscore | .zremrangebylex | .zlexcount
  | .ricreate | .riset | .riget | .ridel | .riscan | .rirange | .riexists | .riconfig
  | .rimetrics | .geoadd | .geodist | .geopos | .geohash | .geosearch | .georadiusRo
  | .georadiusbymemberRo => true
  | _ => false

def extractKeys (cmd : RespCommand) (args : List Bytes) : CommandKeys :=
  match args with
  | [] => .none
  | first :: rest =>
    match cmd with
    | .del | .exists | .mget | .unlink => if rest = [] then .single first else .several args
    | .migrate =>
      match rest with
      | _ :: key :: _ => if key = [] then .none else .single key
      | _ => .none
    | .rename | .renamenx | .blmove | .brpoplpush | .zrangestore | .geosearchstore | .smove =>
      firstTwoKeys args
    | .georadius | .georadiusbymember =>
      match storeTarget args with
      | some target => .several [first, target]
      | none => .single first
    | .blpop | .brpop | .bzpopmin | .bzpopmax => if rest = [] then .none else .several args.dropLast
    | .sinter | .sunion | .sdiff | .sinterstore | .sunionstore | .sdiffstore | .zunion | .zinter
    | .zdiff | .zunionstore | .zinterstore | .zdiffstore => .several args
    | .mset | .msetnx =>
      if rest = [] then .none
      else if args.length / 2 ≤ 8 then .several ((everySecond args).take (args.length / 2))
      else .several (everySecond args)
    | .bitop => if rest = [] then .none else .several rest
    | .bitopAnd | .bitopOr | .bitopXor | .bitopNot | .bitopDiff | .pfcount | .pfmerge =>
      .several args
    | cmd => if hasSingleKey cmd then .single first else .none

def isReadCommand : RespCommand → Bool
  | .get | .vsim | .vcard | .vdim | .vemb | .vgetattr | .vismember | .vinfo | .vlinks
  | .vrandmember | .exists | .ttl | .pttl | .expiretime | .pexpiretime | .mget | .keys | .time
  | .substr | .dbsize | .type | .strlen | .getrange | .getbit | .bitcount | .bitpos | .pfcount
  | .lastsave | .role | .hello | .hget | .hlen | .hgetall | .hkeys | .hvals | .hexists | .hmget
  | .hscan | .httl | .llen | .lrange | .lindex | .scard | .sismember | .smembers | .smismember
  | .sscan | .sinter | .sintercard | .sunion | .sdiff | .srandmember | .lpos | .zcard | .zscore
  | .zrange | .zcount | .zrank | .zrevrank | .zscan | .zmscore | .zrandmember | .zrevrange
  | .zrangebyscore | .zrevrangebyscore | .zrangebylex | .zrevrangebylex | .zlexcount | .zunion
  | .zinter | .zdiff | .zintercard | .geodist | .geopos | .geohash | .geosearch | .georadiusRo
  | .georadiusbymemberRo | .riget | .riscan | .rirange | .riexists | .riconfig | .rimetrics => true
  | _ => false

end Wedb.Server
