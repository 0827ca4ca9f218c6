/-
The set of commands a user may run: a bitmap, the custom commands allowed and denied by name, and a
text that records the rules which led to it.
-/

import Mathlib.Data.Finset.Basic
import Wedb.RespCommand
import Wedb.Text

namespace Wedb.Acl

open Resp

/-- A `str` constant of the source. -/
def text (constant : String) : Text := constant.toList

abbrev Bitmap := BitVec 1024

def ofWords : List UInt64 → Bitmap
  | [] => 0
  | word :: rest => BitVec.ofNat 1024 word.toNat ||| (ofWords rest <<< 64)

def bit (index : Nat) : Bitmap := 1#1024 <<< index

def catAll : Bitmap := BitVec.allOnes 1024

def catNone : Bitmap := 0

def catAdmin : Bitmap :=
  ofWords [0x400000, 0x200000000, 0, 0xf8c0000000000000, 0xee67800fd003f980, 0x1cffebd6ffdf]

def catBitmap : Bitmap := ofWords [0x4, 0xe08000000000800, 0x100]

def catBlocking : Bitmap := ofWords [0x7c00000000038]

def catConnection : Bitmap := ofWords [0, 0, 0, 0xff7004000000000, 0x7e000000060, 0xe00000000000]

def catCustom : Bitmap := ofWords [0, 0, 0, 0, 0x3c0000]

def catDangerous : Bitmap :=
  ofWords [0x8000000006000, 0x8000004, 0x400000, 0xf8c0000000000000, 0xee67800fd03edb80,
    0x1cff82d2ffdf]

def catFast : Bitmap :=
  ofWords [0x43c0071fffb818f2, 0xa40059f9bb8081da, 0xff2145422f133b81, 0x70841ebe218f9, 0x4c6d,
    0xe00000000000]

def catGarnet : Bitmap :=
  ofWords [0x6000000000400000, 0x100000fa00000002, 0, 0x80000007e3c00000, 0x80100000003d2010,
    0x1c9a6b9674cf]

def catGeo : Bitmap := ofWords [0x78000, 0, 0x7e]

def catHash : Bitmap := ofWords [0x3ffc00000, 0, 0xf3ff000]

def catHyperloglog : Bitmap := ofWords [0x600000000000000, 0, 0x8000000000]

def catKeyspace : Bitmap :=
  ofWords [0x11c8000000007900, 0xe00000001800000c, 0x300037c00400001, 0, 0x200000000000]

def catList : Bitmap := ofWords [0x7ffe000000000, 0xf0, 0xf0000000]

def catPubsub : Bitmap := ofWords [0, 0, 0x12000000000000, 0xff0000000000, 0, 0x60000000]

def catRead : Bitmap := ofWords [0, 0xfe00000000000000, 0xffffffffffffffff, 0x7ffffffff]

def catScripting : Bitmap := ofWords [0, 0, 0, 0x1800000000, 0x3800000]

def catSet : Bitmap := ofWords [0, 0x7c00300, 0x8dfc0000000000]

def catSlow : Bitmap :=
  ofWords [0x3c3ff8e00007e50c, 0x5a0fa60444671e24, 0xdebabdd0ecc47e, 0x7ff8f7be141de706,
    0xfffffffffffe9382, 0x1ffdf7ffffff]

def catSortedset : Bitmap := ofWords [0x38, 0x7ffff00000000, 0, 0x1fffffc0]

def catStream : Bitmap := ofWords []

def catString : Bitmap := ofWords [0x830001c003804c2, 0x279400, 0x60000200800e80]

def catTransaction : Bitmap := ofWords [0, 0, 0, 0x38, 0x1f]

def catVector : Bitmap := ofWords [0, 0xe0000000, 0xfc00000000000000, 0x7]

def catWrite : Bitmap := ofWords [0x7ffffffffffffdfe, 0xfffffffe79ffe]

def noAuthMask : Bitmap :=
  (List.range' RespCommand.auth.code (RespCommand.quit.code - RespCommand.auth.code + 1)).foldl
    (fun mask code => mask ||| bit code) 0

def categoryTable : List (String × Bitmap) :=
  [("admin", catAdmin), ("all", catAll), ("bitmap", catBitmap), ("blocking", catBlocking),
  ("connection", catConnection), ("custom", catCustom), ("dangerous", catDangerous),
  ("fast", catFast), ("garnet", catGarnet), ("geo", catGeo), ("hash", catHash),
  ("hyperloglog", catHyperloglog), ("keyspace", catKeyspace), ("list", catList),
  ("pubsub", catPubsub), ("read", catRead), ("scripting", catScripting), ("set", catSet),
  ("slow", catSlow), ("sortedset", catSortedset), ("stream", catStream), ("string", catString),
  ("transaction", catTransaction), ("vector", catVector), ("write", catWrite)]

def lookupCategory (category : Text) : Option (Text × Bitmap) :=
  (categoryTable.find? fun entry => Text.eqIgnoreAsciiCase (text entry.1) category).map fun entry =>
    (text entry.1, entry.2)

def cmdNames : List String :=
  ["none", "append", "bitfield", "bzmpop", "bzpopmax", "bzpopmin", "decr", "decrby", "del",
  "delifexpim", "delifgreater", "expire", "expireat", "flushall", "flushdb", "geoadd", "georadius",
  "georadiusbymember", "geosearchstore", "getdel", "getex", "getset", "hcollect", "hdel", "hexpire",
  "hpexpire", "hexpireat", "hpexpireat", "hpersist", "hincrby", "hincrbyfloat", "hmset", "hset",
  "hsetnx", "incr", "incrby", "incrbyfloat", "linsert", "lmove", "lmpop", "lpop", "lpush", "lpushx",
  "lrem", "lset", "ltrim", "blpop", "brpop", "blmove", "brpoplpush", "blmpop", "migrate", "mset",
  "msetnx", "persist", "pexpire", "pexpireat", "pfadd", "pfmerge", "psetex", "rename", "ri.create",
  "ri.del", "ripromote", "rirestore", "ri.set", "restore", "renamenx", "rpop", "rpoplpush", "rpush",
  "rpushx", "sadd", "sdiffstore", "set", "setbit", "setex", "setexnx", "setexxx", "setnx",
  "setifmatch", "setifgreater", "setwithetag", "setkeepttl", "setkeepttlxx", "setrange",
  "sinterstore", "smove", "spop", "srem", "sunionstore", "swapdb", "unlink", "vadd", "vrem",
  "vsetattr", "zadd", "zcollect", "zdiffstore", "zexpire", "zpexpire", "zexpireat", "zpexpireat",
  "zpersist", "zincrby", "zmpop", "zinterstore", "zpopmax", "zpopmin", "zrangestore", "zrem",
  "zremrangebylex", "zremrangebyrank", "zremrangebyscore", "zunionstore", "bitop", "bitop_and",
  "bitop_or", "bitop_xor", "bitop_not", "bitop_diff", "bitcount", "bitfield_ro", "bitpos", "coscan",
  "dbsize", "dump", "exists", "expiretime", "geodist", "geohash", "geopos", "georadius_ro",
  "georadiusbymember_ro", "geosearch", "get", "getbit", "getifnotmatch", "getrange", "getwithetag",
  "hexists", "hget", "hgetall", "hkeys", "hlen", "hmget", "hrandfield", "hscan", "hstrlen", "hvals",
  "keys", "lcs", "httl", "hpttl", "hexpiretime", "hpexpiretime", "lindex", "llen", "lpos", "lrange",
  "memory|usage", "mget", "object|encoding", "object|freq", "object|idletime", "object|refcount",
  "pexpiretime", "pfcount", "pttl", "scan", "scard", "sdiff", "sinter", "sintercard", "sismember",
  "smembers", "smismember", "spublish", "srandmember", "sscan", "ssubscribe", "strlen", "substr",
  "sunion", "ttl", "type", "vcard", "vdim", "vemb", "vgetattr", "vinfo", "vismember", "vlinks",
  "vrandmember", "vsim", "watch", "watchms", "watchos", "zcard", "zcount", "zdiff", "zinter",
  "zintercard", "zlexcount", "zmscore", "zrandmember", "zrange", "zrangebylex", "zrangebyscore",
  "zrank", "zrevrange", "zrevrangebylex", "zrevrangebyscore", "zrevrank", "zttl", "zpttl",
  "zexpiretime", "zpexpiretime", "zscan", "zscore", "zunion", "ri.config", "ri.exists", "ri.get",
  "ri.metrics", "ri.range", "ri.scan", "eval", "evalsha", "async", "ping", "pubsub",
  "pubsub|channels", "pubsub|numpat", "pubsub|numsub", "publish", "subscribe", "psubscribe",
  "unsubscribe", "punsubscribe", "asking", "select", "echo", "client", "client|id", "client|info",
  "client|list", "client|kill", "client|getname", "client|setname", "client|setinfo",
  "client|unblock", "monitor", "module", "module|loadcs", "registercs", "multi", "exec", "discard",
  "unwatch", "runtxp", "readonly", "readwrite", "replicaof", "slaveof", "info", "time", "role",
  "save", "expdelscan", "lastsave", "bgsave", "commitaof", "failover", "customtxn",
  "customrawstringcmd", "customobjcmd", "customprocedure", "script", "script|exists",
  "script|flush", "script|load", "acl", "acl|cat", "acl|deluser", "acl|genpass", "acl|getuser",
  "acl|list", "acl|load", "acl|save", "acl|setuser", "acl|users", "acl|whoami", "command",
  "command|count", "command|docs", "command|info", "command|getkeys", "command|getkeysandflags",
  "memory", "object", "object|help", "config", "config|get", "config|rewrite", "config|set",
  "debug", "latency", "latency|help", "latency|histogram", "latency|reset", "slowlog",
  "slowlog|help", "slowlog|len", "slowlog|get", "slowlog|reset", "cluster", "cluster|addslots",
  "cluster|addslotsrange", "cluster|advance_time", "cluster|appendlog", "cluster|attach_sync",
  "cluster|banlist", "cluster|begin_replica_recover", "cluster|bumpepoch",
  "cluster|countkeysinslot", "cluster|delkeysinslot", "cluster|delkeysinslotrange",
  "cluster|delslots", "cluster|delslotsrange", "cluster|endpoint", "cluster|failover",
  "cluster|failreplicationoffset", "cluster|failstopwrites", "cluster|flushall", "cluster|forget",
  "cluster|getkeysinslot", "cluster|gossip", "cluster|help", "cluster|info",
  "cluster|initiate_replica_sync", "cluster|keyslot", "cluster|meet", "cluster|migrate",
  "cluster|mlog_key_time", "cluster|mtasks", "cluster|myid", "cluster|myparentid", "cluster|nodes",
  "cluster|publish", "cluster|spublish", "cluster|replicas", "cluster|replicate", "cluster|reserve",
  "cluster|reset", "cluster|send_ckpt_file_segment", "cluster|send_ckpt_metadata",
  "cluster|set-config-epoch", "cluster|setslot", "cluster|setslotsrange", "cluster|shards",
  "cluster|slots", "cluster|slotstate", "cluster|snapshot_data", "cluster|sync", "auth", "hello",
  "quit"]

def commandName (cmd : RespCommand) : Text := text (cmdNames.getD cmd.code "")

structure CommandPermissionSet where
  bits : Bitmap
  description : Text
  customAllowed : Finset Text
  customDenied : Finset Text
  deriving DecidableEq

namespace CommandPermissionSet

def new : CommandPermissionSet where
  bits := catNone
  description := []
  customAllowed := ∅
  customDenied := ∅

def all : CommandPermissionSet where
  bits := catAll
  description := text "+@all"
  customAllowed := ∅
  customDenied := ∅

variable (set : CommandPermissionSet)

def isAll : Bool := set.bits = catAll ∧ set.customDenied = ∅

def isEmpty : Bool := set.bits = catNone ∧ set.customAllowed = ∅

variable (cmd : RespCommand)

def allow : Bool :=
  let index := cmd.normalizeForAcls.code
  if index = 0 ∨ 1024 ≤ index then false else set.bits.getLsbD index

def allowCustom (genericCmd : RespCommand) (customName : Text) : Bool :=
  let norm := customName.toAsciiUppercase
  if norm ∈ set.customDenied then false
  else if norm ∈ set.customAllowed then true
  else if set.isAll then true
  else set.allow genericCmd

def setBitIdx (index : Nat) (on : Bool) : CommandPermissionSet :=
  if 0 < index ∧ index < 1024 then
    { set with bits := if on then set.bits ||| bit index else set.bits &&& ~~~bit index }
  else set

def applyCommandBits (on : Bool) : CommandPermissionSet :=
  let norm := cmd.normalizeForAcls
  norm.expandForAcls.foldl (fun set extra => set.setBitIdx extra.code on)
    (set.setBitIdx norm.code on)

/-- `CommandPermissionSet::set`. -/
def grant : CommandPermissionSet := set.applyCommandBits cmd true

def clear : CommandPermissionSet :=
  if cmd.isNoAuth then set else set.applyCommandBits cmd false

def setAll : CommandPermissionSet := { set with bits := catAll, customDenied := ∅ }

def clearAll : CommandPermissionSet := { set with bits := catNone, customAllowed := ∅ }

variable (category : Bitmap)

def isCategoryAllAllowed : Bool := set.bits &&& category = category

def isCategoryAnyAllowed : Bool := set.bits &&& category ≠ 0

def orBits : CommandPermissionSet := { set with bits := set.bits ||| category }

def andnotBitsProtectNoauth : CommandPermissionSet :=
  { set with bits := set.bits &&& ~~~(category &&& ~~~noAuthMask) }

def addCustomCommand (name : Text) : CommandPermissionSet :=
  let norm := name.toAsciiUppercase
  { set with
    customDenied := set.customDenied.erase norm
    customAllowed := insert norm set.customAllowed }

def removeCustomCommand (name : Text) : CommandPermissionSet :=
  let norm := name.toAsciiUppercase
  { set with
    customAllowed := set.customAllowed.erase norm
    customDenied := insert norm set.customDenied }

def setDescription (description : Text) : CommandPermissionSet :=
  { set with description := description }

def appendToken (sign : Char) (category : Bool) (token : Text) : CommandPermissionSet :=
  { set with
    description := (if set.description = [] then [] else set.description ++ [' ']) ++
        sign :: (if category then ['@'] else []) ++ token }

def appendOp (sign : Char) (token : Text) : CommandPermissionSet :=
  set.appendToken sign false token

def appendCategoryOp (sign : Char) (category : Text) : CommandPermissionSet :=
  set.appendToken sign true category

end CommandPermissionSet

end Wedb.Acl
