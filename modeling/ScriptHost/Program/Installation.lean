import ScriptHost.FileTree

/-!
# Installed programs

The file tree of a host on which nothing but the standard tools is installed.
-/

namespace ScriptHost

/-- The standard tools. -/
def standardTools : List String :=
  ["sh", "cat", "echo", "printf", "ls", "pwd", "wc", "true", "false", "sleep", "kill", "grep", "sed",
    "sort", "env", "cp", "touch", "test", "[", "head"]

namespace FileTree

/-- The tree with a tool in the two directories of programs. -/
def withTool (tree : FileTree) (tool : String) : FileTree :=
  (tree.put ["bin", tool] (.program tool)).put ["usr", "bin", tool] (.program tool)

/-- The tree that holds the standard tools and the null device. -/
def standard : FileTree :=
  let directories := [["bin"], ["usr"], ["usr", "bin"], ["tmp"], ["dev"], ["home"]]
  let tree := directories.foldl (fun tree place => tree.put place .directory) empty
  (standardTools.foldl withTool tree).put ["dev", "null"] .nullDevice

end FileTree

end ScriptHost
