import UnionAtlas.Disk
import UnionAtlas.Files.FileSet

/-!
# Files from disk

A file set takes a version from disk under a path of its own choice: the path it is kept under and
the path it is read from need not be the same.
-/

namespace UnionAtlas
namespace FileSet

/-- A new version of a path, read from another path on disk. A file that cannot be read adds no
version. -/
def load (fs : FileSet) (disk : Disk) (path onDisk : Bytes) (flags : FileFlags) :
    Except DiskError (FileId × FileSet) :=
  (disk.content onDisk).map fun bytes => fs.addLoaded path bytes flags

end FileSet
end UnionAtlas
