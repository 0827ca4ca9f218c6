/-
The commands the server knows, their names, and the search for a command by name. The source
searches a hash table built from the definitions; a search here walks them.
-/

import Wedb.Bytes

namespace Wedb.Resp

inductive RespCommand
  | none | append | bitfield | bzmpop | bzpopmax | bzpopmin | decr | decrby | del | delifexpim
  | delifgreater | expire | expireat | flushall | flushdb | geoadd | georadius | georadiusbymember
  | geosearchstore | getdel | getex | getset | hcollect | hdel | hexpire | hpexpire | hexpireat
  | hpexpireat | hpersist | hincrby | hincrbyfloat | hmset | hset | hsetnx | incr | incrby
  | incrbyfloat | linsert | lmove | lmpop | lpop | lpush | lpushx | lrem | lset | ltrim | blpop
  | brpop | blmove | brpoplpush | blmpop | migrate | mset | msetnx | persist | pexpire | pexpireat
  | pfadd | pfmerge | psetex | rename | ricreate | ridel | ripromote | rirestore | riset | restore
  | renamenx | rpop | rpoplpush | rpush | rpushx | sadd | sdiffstore | set | setbit | setex
  | setexnx | setexxx | setnx | setifmatch | setifgreater | setwithetag | setkeepttl
  | setkeepttlxx | setrange | sinterstore | smove | spop | srem | sunionstore | swapdb | unlink
  | vadd | vrem | vsetattr | zadd | zcollect | zdiffstore | zexpire | zpexpire | zexpireat
  | zpexpireat | zpersist | zincrby | zmpop | zinterstore | zpopmax | zpopmin | zrangestore | zrem
  | zremrangebylex | zremrangebyrank | zremrangebyscore | zunionstore | bitop | bitopAnd | bitopOr
  | bitopXor | bitopNot | bitopDiff | bitcount | bitfieldRo | bitpos | coscan | dbsize | dump
  | exists | expiretime | geodist | geohash | geopos | georadiusRo | georadiusbymemberRo
  | geosearch | get | getbit | getifnotmatch | getrange | getwithetag | hexists | hget | hgetall
  | hkeys | hlen | hmget | hrandfield | hscan | hstrlen | hvals | keys | lcs | httl | hpttl
  | hexpiretime | hpexpiretime | lindex | llen | lpos | lrange | memoryUsage | mget
  | objectEncoding | objectFreq | objectIdletime | objectRefcount | pexpiretime | pfcount | pttl
  | scan | scard | sdiff | sinter | sintercard | sismember | smembers | smismember | spublish
  | srandmember | sscan | ssubscribe | strlen | substr | sunion | ttl | type | vcard | vdim | vemb
  | vgetattr | vinfo | vismember | vlinks | vrandmember | vsim | watch | watchms | watchos | zcard
  | zcount | zdiff | zinter | zintercard | zlexcount | zmscore | zrandmember | zrange
  | zrangebylex | zrangebyscore | zrank | zrevrange | zrevrangebylex | zrevrangebyscore | zrevrank
  | zttl | zpttl | zexpiretime | zpexpiretime | zscan | zscore | zunion | riconfig | riexists
  | riget | rimetrics | rirange | riscan | eval | evalsha | async | ping | pubsub | pubsubChannels
  | pubsubNumpat | pubsubNumsub | publish | subscribe | psubscribe | unsubscribe | punsubscribe
  | asking | select | echo | client | clientId | clientInfo | clientList | clientKill
  | clientGetname | clientSetname | clientSetinfo | clientUnblock | monitor | module
  | moduleLoadcs | registercs | multi | exec | discard | unwatch | runtxp | readonly | readwrite
  | replicaof | secondaryof | info | time | role | save | expdelscan | lastsave | bgsave
  | commitaof | failover | customTxn | customRawStringCmd | customObjCmd | customProcedure
  | script | scriptExists | scriptFlush | scriptLoad | acl | aclCat | aclDeluser | aclGenpass
  | aclGetuser | aclList | aclLoad | aclSave | aclSetuser | aclUsers | aclWhoami | command
  | commandCount | commandDocs | commandInfo | commandGetkeys | commandGetkeysandflags | memory
  | object | objectHelp | config | configGet | configRewrite | configSet | debug | latency
  | latencyHelp | latencyHistogram | latencyReset | slowlog | slowlogHelp | slowlogLen
  | slowlogGet | slowlogReset | cluster | clusterAddslots | clusterAddslotsrange
  | clusterAdvanceTime | clusterAppendlog | clusterAttachSync | clusterBanlist
  | clusterBeginReplicaRecover | clusterBumpepoch | clusterCountkeysinslot | clusterDelkeysinslot
  | clusterDelkeysinslotrange | clusterDelslots | clusterDelslotsrange | clusterEndpoint
  | clusterFailover | clusterFailreplicationoffset | clusterFailstopwrites | clusterFlushall
  | clusterForget | clusterGetkeysinslot | clusterGossip | clusterHelp | clusterInfo
  | clusterInitiateReplicaSync | clusterKeyslot | clusterMeet | clusterMigrate
  | clusterMlogKeyTime | clusterMtasks | clusterMyid | clusterMyparentid | clusterNodes
  | clusterPublish | clusterSpublish | clusterReplicas | clusterReplicate | clusterReserve
  | clusterReset | clusterSendCkptFileSegment | clusterSendCkptMetadata | clusterSetconfigepoch
  | clusterSetslot | clusterSetslotsrange | clusterShards | clusterSlots | clusterSlotstate
  | clusterSnapshotData | clusterSync | auth | hello | quit | invalid
  deriving DecidableEq

/-- The names of `as_str`, in the order of the commands. -/
def commandStrings : List String :=
  ["NONE", "APPEND", "BITFIELD", "BZMPOP", "BZPOPMAX", "BZPOPMIN", "DECR", "DECRBY", "DEL",
  "DELIFEXPIM", "DELIFGREATER", "EXPIRE", "EXPIREAT", "FLUSHALL", "FLUSHDB", "GEOADD", "GEORADIUS",
  "GEORADIUSBYMEMBER", "GEOSEARCHSTORE", "GETDEL", "GETEX", "GETSET", "HCOLLECT", "HDEL", "HEXPIRE",
  "HPEXPIRE", "HEXPIREAT", "HPEXPIREAT", "HPERSIST", "HINCRBY", "HINCRBYFLOAT", "HMSET", "HSET",
  "HSETNX", "INCR", "INCRBY", "INCRBYFLOAT", "LINSERT", "LMOVE", "LMPOP", "LPOP", "LPUSH", "LPUSHX",
  "LREM", "LSET", "LTRIM", "BLPOP", "BRPOP", "BLMOVE", "BRPOPLPUSH", "BLMPOP", "MIGRATE", "MSET",
  "MSETNX", "PERSIST", "PEXPIRE", "PEXPIREAT", "PFADD", "PFMERGE", "PSETEX", "RENAME", "RICREATE",
  "RIDEL", "RIPROMOTE", "RIRESTORE", "RISET", "RESTORE", "RENAMENX", "RPOP", "RPOPLPUSH", "RPUSH",
  "RPUSHX", "SADD", "SDIFFSTORE", "SET", "SETBIT", "SETEX", "SETEXNX", "SETEXXX", "SETNX",
  "SETIFMATCH", "SETIFGREATER", "SETWITHETAG", "SETKEEPTTL", "SETKEEPTTLXX", "SETRANGE",
  "SINTERSTORE", "SMOVE", "SPOP", "SREM", "SUNIONSTORE", "SWAPDB", "UNLINK", "VADD", "VREM",
  "VSETATTR", "ZADD", "ZCOLLECT", "ZDIFFSTORE", "ZEXPIRE", "ZPEXPIRE", "ZEXPIREAT", "ZPEXPIREAT",
  "ZPERSIST", "ZINCRBY", "ZMPOP", "ZINTERSTORE", "ZPOPMAX", "ZPOPMIN", "ZRANGESTORE", "ZREM",
  "ZREMRANGEBYLEX", "ZREMRANGEBYRANK", "ZREMRANGEBYSCORE", "ZUNIONSTORE", "BITOP", "BITOP_AND",
  "BITOP_OR", "BITOP_XOR", "BITOP_NOT", "BITOP_DIFF", "BITCOUNT", "BITFIELD_RO", "BITPOS", "COSCAN",
  "DBSIZE", "DUMP", "EXISTS", "EXPIRETIME", "GEODIST", "GEOHASH", "GEOPOS", "GEORADIUS_RO",
  "GEORADIUSBYMEMBER_RO", "GEOSEARCH", "GET", "GETBIT", "GETIFNOTMATCH", "GETRANGE", "GETWITHETAG",
  "HEXISTS", "HGET", "HGETALL", "HKEYS", "HLEN", "HMGET", "HRANDFIELD", "HSCAN", "HSTRLEN", "HVALS",
  "KEYS", "LCS", "HTTL", "HPTTL", "HEXPIRETIME", "HPEXPIRETIME", "LINDEX", "LLEN", "LPOS", "LRANGE",
  "MEMORY_USAGE", "MGET", "OBJECT_ENCODING", "OBJECT_FREQ", "OBJECT_IDLETIME", "OBJECT_REFCOUNT",
  "PEXPIRETIME", "PFCOUNT", "PTTL", "SCAN", "SCARD", "SDIFF", "SINTER", "SINTERCARD", "SISMEMBER",
  "SMEMBERS", "SMISMEMBER", "SPUBLISH", "SRANDMEMBER", "SSCAN", "SSUBSCRIBE", "STRLEN", "SUBSTR",
  "SUNION", "TTL", "TYPE", "VCARD", "VDIM", "VEMB", "VGETATTR", "VINFO", "VISMEMBER", "VLINKS",
  "VRANDMEMBER", "VSIM", "WATCH", "WATCHMS", "WATCHOS", "ZCARD", "ZCOUNT", "ZDIFF", "ZINTER",
  "ZINTERCARD", "ZLEXCOUNT", "ZMSCORE", "ZRANDMEMBER", "ZRANGE", "ZRANGEBYLEX", "ZRANGEBYSCORE",
  "ZRANK", "ZREVRANGE", "ZREVRANGEBYLEX", "ZREVRANGEBYSCORE", "ZREVRANK", "ZTTL", "ZPTTL",
  "ZEXPIRETIME", "ZPEXPIRETIME", "ZSCAN", "ZSCORE", "ZUNION", "RICONFIG", "RIEXISTS", "RIGET",
  "RIMETRICS", "RIRANGE", "RISCAN", "EVAL", "EVALSHA", "ASYNC", "PING", "PUBSUB", "PUBSUB_CHANNELS",
  "PUBSUB_NUMPAT", "PUBSUB_NUMSUB", "PUBLISH", "SUBSCRIBE", "PSUBSCRIBE", "UNSUBSCRIBE",
  "PUNSUBSCRIBE", "ASKING", "SELECT", "ECHO", "CLIENT", "CLIENT_ID", "CLIENT_INFO", "CLIENT_LIST",
  "CLIENT_KILL", "CLIENT_GETNAME", "CLIENT_SETNAME", "CLIENT_SETINFO", "CLIENT_UNBLOCK", "MONITOR",
  "MODULE", "MODULE_LOADCS", "REGISTERCS", "MULTI", "EXEC", "DISCARD", "UNWATCH", "RUNTXP",
  "READONLY", "READWRITE", "REPLICAOF", "SECONDARYOF", "INFO", "TIME", "ROLE", "SAVE", "EXPDELSCAN",
  "LASTSAVE", "BGSAVE", "COMMITAOF", "FAILOVER", "CustomTxn", "CustomRawStringCmd", "CustomObjCmd",
  "CustomProcedure", "SCRIPT", "SCRIPT_EXISTS", "SCRIPT_FLUSH", "SCRIPT_LOAD", "ACL", "ACL_CAT",
  "ACL_DELUSER", "ACL_GENPASS", "ACL_GETUSER", "ACL_LIST", "ACL_LOAD", "ACL_SAVE", "ACL_SETUSER",
  "ACL_USERS", "ACL_WHOAMI", "COMMAND", "COMMAND_COUNT", "COMMAND_DOCS", "COMMAND_INFO",
  "COMMAND_GETKEYS", "COMMAND_GETKEYSANDFLAGS", "MEMORY", "OBJECT", "OBJECT_HELP", "CONFIG",
  "CONFIG_GET", "CONFIG_REWRITE", "CONFIG_SET", "DEBUG", "LATENCY", "LATENCY_HELP",
  "LATENCY_HISTOGRAM", "LATENCY_RESET", "SLOWLOG", "SLOWLOG_HELP", "SLOWLOG_LEN", "SLOWLOG_GET",
  "SLOWLOG_RESET", "CLUSTER", "CLUSTER_ADDSLOTS", "CLUSTER_ADDSLOTSRANGE", "CLUSTER_ADVANCE_TIME",
  "CLUSTER_APPENDLOG", "CLUSTER_ATTACH_SYNC", "CLUSTER_BANLIST", "CLUSTER_BEGIN_REPLICA_RECOVER",
  "CLUSTER_BUMPEPOCH", "CLUSTER_COUNTKEYSINSLOT", "CLUSTER_DELKEYSINSLOT",
  "CLUSTER_DELKEYSINSLOTRANGE", "CLUSTER_DELSLOTS", "CLUSTER_DELSLOTSRANGE", "CLUSTER_ENDPOINT",
  "CLUSTER_FAILOVER", "CLUSTER_FAILREPLICATIONOFFSET", "CLUSTER_FAILSTOPWRITES", "CLUSTER_FLUSHALL",
  "CLUSTER_FORGET", "CLUSTER_GETKEYSINSLOT", "CLUSTER_GOSSIP", "CLUSTER_HELP", "CLUSTER_INFO",
  "CLUSTER_INITIATE_REPLICA_SYNC", "CLUSTER_KEYSLOT", "CLUSTER_MEET", "CLUSTER_MIGRATE",
  "CLUSTER_MLOG_KEY_TIME", "CLUSTER_MTASKS", "CLUSTER_MYID", "CLUSTER_MYPARENTID", "CLUSTER_NODES",
  "CLUSTER_PUBLISH", "CLUSTER_SPUBLISH", "CLUSTER_REPLICAS", "CLUSTER_REPLICATE", "CLUSTER_RESERVE",
  "CLUSTER_RESET", "CLUSTER_SEND_CKPT_FILE_SEGMENT", "CLUSTER_SEND_CKPT_METADATA",
  "CLUSTER_SETCONFIGEPOCH", "CLUSTER_SETSLOT", "CLUSTER_SETSLOTSRANGE", "CLUSTER_SHARDS",
  "CLUSTER_SLOTS", "CLUSTER_SLOTSTATE", "CLUSTER_SNAPSHOT_DATA", "CLUSTER_SYNC", "AUTH", "HELLO",
  "QUIT", "INVALID"]

def RespCommand.asStr (cmd : RespCommand) : String := commandStrings.getD cmd.ctorIdx ""

example : RespCommand.asStr .get = "GET" ∧ RespCommand.asStr .invalid = "INVALID" := ⟨rfl, rfl⟩

/-- `PRIMARY_DEFINITIONS`: name, command and whether the command has subcommands. -/
def primaryDefinitions : List (String × RespCommand × Bool) :=
  [("GET", .get, false), ("SET", .set, false), ("DEL", .del, false), ("INCR", .incr, false),
  ("DECR", .decr, false), ("INCRBY", .incrby, false), ("DECRBY", .decrby, false),
  ("INCRBYFLOAT", .incrbyfloat, false), ("APPEND", .append, false), ("GETSET", .getset, false),
  ("GETDEL", .getdel, false), ("GETEX", .getex, false), ("GETRANGE", .getrange, false),
  ("SETRANGE", .setrange, false), ("STRLEN", .strlen, false), ("SUBSTR", .substr, false),
  ("SETNX", .setnx, false), ("SETEX", .setex, false), ("PSETEX", .psetex, false),
  ("MGET", .mget, false), ("MSET", .mset, false), ("MSETNX", .msetnx, false),
  ("DUMP", .dump, false), ("RESTORE", .restore, false), ("GETBIT", .getbit, false),
  ("SETBIT", .setbit, false), ("GETWITHETAG", .getwithetag, false),
  ("GETIFNOTMATCH", .getifnotmatch, false), ("SETIFMATCH", .setifmatch, false),
  ("SETIFGREATER", .setifgreater, false), ("SETWITHETAG", .setwithetag, false),
  ("DELIFGREATER", .delifgreater, false), ("LCS", .lcs, false), ("EXISTS", .exists, false),
  ("TTL", .ttl, false), ("PTTL", .pttl, false), ("EXPIRE", .expire, false),
  ("PEXPIRE", .pexpire, false), ("EXPIREAT", .expireat, false), ("PEXPIREAT", .pexpireat, false),
  ("EXPIRETIME", .expiretime, false), ("PEXPIRETIME", .pexpiretime, false),
  ("PERSIST", .persist, false), ("TYPE", .type, false), ("RENAME", .rename, false),
  ("RENAMENX", .renamenx, false), ("UNLINK", .unlink, false), ("KEYS", .keys, false),
  ("SCAN", .scan, false), ("DBSIZE", .dbsize, false), ("SELECT", .select, false),
  ("SWAPDB", .swapdb, false), ("MIGRATE", .migrate, false), ("BITCOUNT", .bitcount, false),
  ("BITPOS", .bitpos, false), ("BITFIELD", .bitfield, false), ("BITFIELD_RO", .bitfieldRo, false),
  ("BITOP", .bitop, true), ("PFADD", .pfadd, false), ("PFCOUNT", .pfcount, false),
  ("PFMERGE", .pfmerge, false), ("HSET", .hset, false), ("HGET", .hget, false),
  ("HDEL", .hdel, false), ("HLEN", .hlen, false), ("HEXISTS", .hexists, false),
  ("HGETALL", .hgetall, false), ("HKEYS", .hkeys, false), ("HVALS", .hvals, false),
  ("HMSET", .hmset, false), ("HMGET", .hmget, false), ("HSETNX", .hsetnx, false),
  ("HINCRBY", .hincrby, false), ("HINCRBYFLOAT", .hincrbyfloat, false),
  ("HRANDFIELD", .hrandfield, false), ("HSCAN", .hscan, false), ("HSTRLEN", .hstrlen, false),
  ("HTTL", .httl, false), ("HPTTL", .hpttl, false), ("HEXPIRE", .hexpire, false),
  ("HPEXPIRE", .hpexpire, false), ("HEXPIREAT", .hexpireat, false),
  ("HPEXPIREAT", .hpexpireat, false), ("HEXPIRETIME", .hexpiretime, false),
  ("HPEXPIRETIME", .hpexpiretime, false), ("HPERSIST", .hpersist, false),
  ("HCOLLECT", .hcollect, false), ("LPUSH", .lpush, false), ("RPUSH", .rpush, false),
  ("LPUSHX", .lpushx, false), ("RPUSHX", .rpushx, false), ("LPOP", .lpop, false),
  ("RPOP", .rpop, false), ("LLEN", .llen, false), ("LINDEX", .lindex, false),
  ("LINSERT", .linsert, false), ("LRANGE", .lrange, false), ("LREM", .lrem, false),
  ("LSET", .lset, false), ("LTRIM", .ltrim, false), ("LPOS", .lpos, false),
  ("LMOVE", .lmove, false), ("LMPOP", .lmpop, false), ("RPOPLPUSH", .rpoplpush, false),
  ("BLPOP", .blpop, false), ("BRPOP", .brpop, false), ("BLMOVE", .blmove, false),
  ("BRPOPLPUSH", .brpoplpush, false), ("BLMPOP", .blmpop, false), ("SADD", .sadd, false),
  ("SREM", .srem, false), ("SPOP", .spop, false), ("SCARD", .scard, false),
  ("SMEMBERS", .smembers, false), ("SISMEMBER", .sismember, false),
  ("SMISMEMBER", .smismember, false), ("SRANDMEMBER", .srandmember, false),
  ("SMOVE", .smove, false), ("SSCAN", .sscan, false), ("SDIFF", .sdiff, false),
  ("SDIFFSTORE", .sdiffstore, false), ("SINTER", .sinter, false),
  ("SINTERCARD", .sintercard, false), ("SINTERSTORE", .sinterstore, false),
  ("SUNION", .sunion, false), ("SUNIONSTORE", .sunionstore, false), ("ZADD", .zadd, false),
  ("ZREM", .zrem, false), ("ZCARD", .zcard, false), ("ZSCORE", .zscore, false),
  ("ZMSCORE", .zmscore, false), ("ZRANK", .zrank, false), ("ZREVRANK", .zrevrank, false),
  ("ZCOUNT", .zcount, false), ("ZLEXCOUNT", .zlexcount, false), ("ZRANGE", .zrange, false),
  ("ZRANGEBYLEX", .zrangebylex, false), ("ZRANGEBYSCORE", .zrangebyscore, false),
  ("ZRANGESTORE", .zrangestore, false), ("ZREVRANGE", .zrevrange, false),
  ("ZREVRANGEBYLEX", .zrevrangebylex, false), ("ZREVRANGEBYSCORE", .zrevrangebyscore, false),
  ("ZPOPMIN", .zpopmin, false), ("ZPOPMAX", .zpopmax, false),
  ("ZRANDMEMBER", .zrandmember, false), ("ZSCAN", .zscan, false), ("ZINCRBY", .zincrby, false),
  ("ZDIFF", .zdiff, false), ("ZDIFFSTORE", .zdiffstore, false), ("ZINTER", .zinter, false),
  ("ZINTERCARD", .zintercard, false), ("ZINTERSTORE", .zinterstore, false),
  ("ZUNION", .zunion, false), ("ZUNIONSTORE", .zunionstore, false), ("ZMPOP", .zmpop, false),
  ("BZMPOP", .bzmpop, false), ("BZPOPMAX", .bzpopmax, false), ("BZPOPMIN", .bzpopmin, false),
  ("ZREMRANGEBYLEX", .zremrangebylex, false), ("ZREMRANGEBYRANK", .zremrangebyrank, false),
  ("ZREMRANGEBYSCORE", .zremrangebyscore, false), ("ZTTL", .zttl, false),
  ("ZPTTL", .zpttl, false), ("ZEXPIRE", .zexpire, false), ("ZPEXPIRE", .zpexpire, false),
  ("ZEXPIREAT", .zexpireat, false), ("ZPEXPIREAT", .zpexpireat, false),
  ("ZEXPIRETIME", .zexpiretime, false), ("ZPEXPIRETIME", .zpexpiretime, false),
  ("ZPERSIST", .zpersist, false), ("ZCOLLECT", .zcollect, false), ("VADD", .vadd, false),
  ("VCARD", .vcard, false), ("VDIM", .vdim, false), ("VEMB", .vemb, false),
  ("VGETATTR", .vgetattr, false), ("VINFO", .vinfo, false), ("VISMEMBER", .vismember, false),
  ("VLINKS", .vlinks, false), ("VRANDMEMBER", .vrandmember, false), ("VREM", .vrem, false),
  ("VSETATTR", .vsetattr, false), ("VSIM", .vsim, false), ("RI.CREATE", .ricreate, false),
  ("RI.SET", .riset, false), ("RI.GET", .riget, false), ("RI.DEL", .ridel, false),
  ("RI.RANGE", .rirange, false), ("RI.SCAN", .riscan, false), ("RI.EXISTS", .riexists, false),
  ("RI.CONFIG", .riconfig, false), ("RI.METRICS", .rimetrics, false), ("GEOADD", .geoadd, false),
  ("GEOPOS", .geopos, false), ("GEOHASH", .geohash, false), ("GEODIST", .geodist, false),
  ("GEOSEARCH", .geosearch, false), ("GEOSEARCHSTORE", .geosearchstore, false),
  ("GEORADIUS", .georadius, false), ("GEORADIUS_RO", .georadiusRo, false),
  ("GEORADIUSBYMEMBER", .georadiusbymember, false),
  ("GEORADIUSBYMEMBER_RO", .georadiusbymemberRo, false), ("EVAL", .eval, false),
  ("EVALSHA", .evalsha, false), ("PUBLISH", .publish, false), ("SUBSCRIBE", .subscribe, false),
  ("PSUBSCRIBE", .psubscribe, false), ("UNSUBSCRIBE", .unsubscribe, false),
  ("PUNSUBSCRIBE", .punsubscribe, false), ("SPUBLISH", .spublish, false),
  ("SSUBSCRIBE", .ssubscribe, false), ("CUSTOMOBJECTSCAN", .coscan, false),
  ("PING", .ping, false), ("ECHO", .echo, false), ("QUIT", .quit, false), ("AUTH", .auth, false),
  ("HELLO", .hello, false), ("INFO", .info, false), ("TIME", .time, false),
  ("ROLE", .role, false), ("SAVE", .save, false), ("LASTSAVE", .lastsave, false),
  ("BGSAVE", .bgsave, false), ("COMMITAOF", .commitaof, false), ("FLUSHALL", .flushall, false),
  ("FLUSHDB", .flushdb, false), ("FAILOVER", .failover, false), ("MONITOR", .monitor, false),
  ("REGISTERCS", .registercs, false), ("ASYNC", .async, false), ("DEBUG", .debug, false),
  ("EXPDELSCAN", .expdelscan, false), ("WATCH", .watch, false), ("WATCHMS", .watchms, false),
  ("WATCHOS", .watchos, false), ("MULTI", .multi, false), ("EXEC", .exec, false),
  ("DISCARD", .discard, false), ("UNWATCH", .unwatch, false), ("RUNTXP", .runtxp, false),
  ("ASKING", .asking, false), ("READONLY", .readonly, false), ("READWRITE", .readwrite, false),
  ("REPLICAOF", .replicaof, false), ("SECONDARYOF", .secondaryof, false),
  ("SLAVEOF", .secondaryof, false), ("SCRIPT", .script, true), ("CONFIG", .config, true),
  ("CLIENT", .client, true), ("CLUSTER", .cluster, true), ("ACL", .acl, true),
  ("COMMAND", .command, true), ("LATENCY", .latency, true), ("SLOWLOG", .slowlog, true),
  ("MODULE", .module, true), ("PUBSUB", .pubsub, true), ("MEMORY", .memory, true),
  ("OBJECT", .object, true)]

def clusterSubcommands : List (String × RespCommand) :=
  [("ADDSLOTS", .clusterAddslots), ("ADDSLOTSRANGE", .clusterAddslotsrange),
  ("ADVANCE_TIME", .clusterAdvanceTime), ("APPENDLOG", .clusterAppendlog),
  ("ATTACH_SYNC", .clusterAttachSync), ("BANLIST", .clusterBanlist),
  ("BEGIN_REPLICA_RECOVER", .clusterBeginReplicaRecover), ("BUMPEPOCH", .clusterBumpepoch),
  ("COUNTKEYSINSLOT", .clusterCountkeysinslot), ("DELKEYSINSLOT", .clusterDelkeysinslot),
  ("DELKEYSINSLOTRANGE", .clusterDelkeysinslotrange), ("DELSLOTS", .clusterDelslots),
  ("DELSLOTSRANGE", .clusterDelslotsrange), ("ENDPOINT", .clusterEndpoint),
  ("FAILOVER", .clusterFailover), ("FAILREPLICATIONOFFSET", .clusterFailreplicationoffset),
  ("FAILSTOPWRITES", .clusterFailstopwrites), ("FLUSHALL", .clusterFlushall),
  ("FORGET", .clusterForget), ("GETKEYSINSLOT", .clusterGetkeysinslot),
  ("GOSSIP", .clusterGossip), ("HELP", .clusterHelp), ("INFO", .clusterInfo),
  ("INITIATE_REPLICA_SYNC", .clusterInitiateReplicaSync), ("KEYSLOT", .clusterKeyslot),
  ("MEET", .clusterMeet), ("MIGRATE", .clusterMigrate), ("MLOG_KEY_TIME", .clusterMlogKeyTime),
  ("MTASKS", .clusterMtasks), ("MYID", .clusterMyid), ("MYPARENTID", .clusterMyparentid),
  ("NODES", .clusterNodes), ("PUBLISH", .clusterPublish), ("SPUBLISH", .clusterSpublish),
  ("REPLICAS", .clusterReplicas), ("REPLICATE", .clusterReplicate), ("RESERVE", .clusterReserve),
  ("RESET", .clusterReset), ("SEND_CKPT_FILE_SEGMENT", .clusterSendCkptFileSegment),
  ("SEND_CKPT_METADATA", .clusterSendCkptMetadata), ("SET-CONFIG-EPOCH", .clusterSetconfigepoch),
  ("SETCONFIGEPOCH", .clusterSetconfigepoch), ("SETSLOT", .clusterSetslot),
  ("SETSLOTSRANGE", .clusterSetslotsrange), ("SHARDS", .clusterShards), ("SLOTS", .clusterSlots),
  ("SLOTSTATE", .clusterSlotstate), ("SNAPSHOT_DATA", .clusterSnapshotData),
  ("SYNC", .clusterSync)]

def clientSubcommands : List (String × RespCommand) :=
  [("ID", .clientId), ("INFO", .clientInfo), ("LIST", .clientList), ("KILL", .clientKill),
  ("GETNAME", .clientGetname), ("SETNAME", .clientSetname), ("SETINFO", .clientSetinfo),
  ("UNBLOCK", .clientUnblock)]

def aclSubcommands : List (String × RespCommand) :=
  [("CAT", .aclCat), ("DELUSER", .aclDeluser), ("GENPASS", .aclGenpass), ("GETUSER", .aclGetuser),
  ("LIST", .aclList), ("LOAD", .aclLoad), ("SAVE", .aclSave), ("SETUSER", .aclSetuser),
  ("USERS", .aclUsers), ("WHOAMI", .aclWhoami)]

def commandSubcommands : List (String × RespCommand) :=
  [("COUNT", .commandCount), ("DOCS", .commandDocs), ("INFO", .commandInfo),
  ("GETKEYS", .commandGetkeys), ("GETKEYSANDFLAGS", .commandGetkeysandflags)]

def configSubcommands : List (String × RespCommand) :=
  [("GET", .configGet), ("REWRITE", .configRewrite), ("SET", .configSet)]

def scriptSubcommands : List (String × RespCommand) :=
  [("LOAD", .scriptLoad), ("FLUSH", .scriptFlush), ("EXISTS", .scriptExists)]

def latencySubcommands : List (String × RespCommand) :=
  [("HELP", .latencyHelp), ("HISTOGRAM", .latencyHistogram), ("RESET", .latencyReset)]

def slowlogSubcommands : List (String × RespCommand) :=
  [("HELP", .slowlogHelp), ("GET", .slowlogGet), ("LEN", .slowlogLen), ("RESET", .slowlogReset)]

def moduleSubcommands : List (String × RespCommand) :=
  [("LOADCS", .moduleLoadcs)]

def pubsubSubcommands : List (String × RespCommand) :=
  [("CHANNELS", .pubsubChannels), ("NUMSUB", .pubsubNumsub), ("NUMPAT", .pubsubNumpat)]

def memorySubcommands : List (String × RespCommand) :=
  [("USAGE", .memoryUsage)]

def objectSubcommands : List (String × RespCommand) :=
  [("ENCODING", .objectEncoding), ("FREQ", .objectFreq), ("HELP", .objectHelp),
  ("IDLETIME", .objectIdletime), ("REFCOUNT", .objectRefcount)]

def bitopSubcommands : List (String × RespCommand) :=
  [("AND", .bitopAnd), ("OR", .bitopOr), ("XOR", .bitopXor), ("NOT", .bitopNot),
  ("DIFF", .bitopDiff)]

/-- `lookup_core`: the definition of a name. -/
def lookupCore {α : Type} (definitions : List (String × α)) (name : Bytes) : Option α :=
  (definitions.find? fun definition => bytesOf definition.1 == name).map Prod.snd

def lookupIgnoringCase {α : Type} (definitions : List (String × α)) (name : Bytes) : Option α :=
  if name = [] ∨ 24 < name.length then none
  else
    match lookupCore definitions name with
    | some found => some found
    | none =>
      if name.any isAsciiLowercase then lookupCore definitions (name.map toAsciiUppercase)
      else none

def RespCommand.lookup (name : Bytes) : Option (RespCommand × Bool) :=
  lookupIgnoringCase primaryDefinitions name

def RespCommand.fromSlice (name : Bytes) : Option RespCommand :=
  (RespCommand.lookup name).map Prod.fst

def RespCommand.subcommands : RespCommand → List (String × RespCommand)
  | .cluster => clusterSubcommands
  | .client => clientSubcommands
  | .acl => aclSubcommands
  | .command => commandSubcommands
  | .config => configSubcommands
  | .script => scriptSubcommands
  | .latency => latencySubcommands
  | .slowlog => slowlogSubcommands
  | .module => moduleSubcommands
  | .pubsub => pubsubSubcommands
  | .memory => memorySubcommands
  | .object => objectSubcommands
  | .bitop => bitopSubcommands
  | _ => []

def RespCommand.lookupSubcommand (parent : RespCommand) (name : Bytes) : Option RespCommand :=
  lookupIgnoringCase parent.subcommands name

variable (cmd : RespCommand)

/-- `RespCommand::is_write`. The constructors stand in the order of the source's numbers. -/
def RespCommand.isWrite : Bool :=
  RespCommand.append.ctorIdx ≤ cmd.ctorIdx && cmd.ctorIdx ≤ RespCommand.bitopDiff.ctorIdx

def RespCommand.isData : Bool :=
  match cmd with
  | .migrate | .dbsize | .memoryUsage | .flushdb | .flushall | .keys | .scan | .swapdb => false
  | _ => RespCommand.append.ctorIdx ≤ cmd.ctorIdx && cmd.ctorIdx ≤ RespCommand.evalsha.ctorIdx

def RespCommand.isNoAuth : Bool :=
  RespCommand.auth.ctorIdx ≤ cmd.ctorIdx && cmd.ctorIdx ≤ RespCommand.quit.ctorIdx

def RespCommand.code : Nat :=
  if cmd = .invalid then 65535 else cmd.ctorIdx

def RespCommand.normalizeForAcls : RespCommand → RespCommand
  | .setexnx | .setexxx | .setkeepttl | .setkeepttlxx => .set
  | .bitopAnd | .bitopNot | .bitopOr | .bitopXor | .bitopDiff => .bitop
  | cmd => cmd

def RespCommand.expandForAcls : RespCommand → List RespCommand
  | .set => [.setexnx, .setexxx, .setkeepttl, .setkeepttlxx]
  | .bitop => [.bitopAnd, .bitopNot, .bitopOr, .bitopXor, .bitopDiff]
  | _ => []

end Wedb.Resp
